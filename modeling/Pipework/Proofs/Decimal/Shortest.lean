import Mathlib.Tactic.Linarith
import Pipework.Proofs.Decimal.Grid

/-!
# Doubles and their shortest decimals

The shortest decimal of a double lies in the interval of that double, and the intervals of different
doubles do not overlap. So the decimal and the sign tell the double.
-/

namespace Pipework.Binary64

theorem pow_ten_lt (n : Nat) : 10 ^ n < 2 ^ (10 * (n / 3 + 1)) :=
  calc 10 ^ n ≤ 10 ^ (3 * (n / 3 + 1)) := Nat.pow_le_pow_right (by decide) (by omega)
    _ = (10 ^ 3) ^ (n / 3 + 1) := Nat.pow_mul ..
    _ < (2 ^ 10) ^ (n / 3 + 1) := Nat.pow_lt_pow_left (by decide) (by omega)
    _ = 2 ^ (10 * (n / 3 + 1)) := (Nat.pow_mul ..).symm

theorem le_pow_ten (n : Nat) : 2 ^ (33 * (n / 10) + 3 * (n % 10)) ≤ 10 ^ n :=
  calc 2 ^ (33 * (n / 10) + 3 * (n % 10)) = (2 ^ 33) ^ (n / 10) * (2 ^ 3) ^ (n % 10) := by
        rw [Nat.pow_add, Nat.pow_mul, Nat.pow_mul]
    _ ≤ (10 ^ 10) ^ (n / 10) * 10 ^ (n % 10) :=
        Nat.mul_le_mul (Nat.pow_le_pow_left (by decide) _) (Nat.pow_le_pow_left (by decide) _)
    _ = 10 ^ n := by
        rw [← Nat.pow_mul, ← Nat.pow_add, Nat.div_add_mod]

/-- The integers of a double: all subnormals have the same exponent, and the others all 53 bits. -/
structure Canonical (m : Nat) (q : Int) : Prop where
  lt : m < 2 ^ 53
  le : -1074 ≤ q
  le' : q ≤ 972
  subnormal : m < 2 ^ 52 → q = -1074

theorem scale_pos (m : Nat) (q : Int) : 0 < (interval m q).scale := by
  simp only [interval]
  split
  · exact Nat.pow_pos (by decide)
  · decide

variable {m : Nat} {q : Int}

/-- After 24 attempts the grid is finer than half the distance to the next double. -/
theorem fine_grid (h : Canonical m q) (hm : 0 < m) :
    (interval m q).scale * Interval.multiple (topExponent m q - 23)
      < 2 * (if q < 2 then 1 else Nat.pow 2 (q - 2).toNat)
        * Interval.unit (topExponent m q - 23) := by
  have hlog : m.log2 ≤ 52 := by
    have := (Nat.log2_lt (by omega)).2 h.lt
    omega
  have hle := h.le
  have hle' := h.le'
  obtain ⟨e, he⟩ : ∃ e, topExponent m q - 23 = e := ⟨_, rfl⟩
  rw [he]
  unfold topExponent at he
  simp only [interval, Interval.multiple, Interval.unit]
  by_cases hq : q < 2
  · -- The grid is made of fractions, and so is the interval.
    have hneg : e < 0 := by omega
    simp only [if_pos hq, if_pos hneg, Nat.pow_eq, Nat.mul_one]
    have hexp : (2 - q).toNat < 1 + (33 * ((-e).toNat / 10) + 3 * ((-e).toNat % 10)) := by omega
    calc 2 ^ (2 - q).toNat < 2 ^ (1 + (33 * ((-e).toNat / 10) + 3 * ((-e).toNat % 10))) :=
          Nat.pow_lt_pow_right (by decide) hexp
      _ = 2 * 2 ^ (33 * ((-e).toNat / 10) + 3 * ((-e).toNat % 10)) := by
          rw [Nat.pow_add, Nat.pow_one]
      _ ≤ 2 * 10 ^ (-e).toNat := Nat.mul_le_mul_left 2 (le_pow_ten _)
  · by_cases hneg : e < 0
    · simp only [if_neg hq, if_pos hneg, Nat.pow_eq, Nat.mul_one]
      have htwo : 1 ≤ 2 ^ (q - 2).toNat := Nat.one_le_two_pow
      have hten : 1 ≤ 10 ^ (-e).toNat := Nat.one_le_pow _ _ (by decide)
      calc 1 < 2 * 1 * 1 := by decide
        _ ≤ 2 * 2 ^ (q - 2).toNat * 10 ^ (-e).toNat :=
          Nat.mul_le_mul (Nat.mul_le_mul_left 2 htwo) hten
    · simp only [if_neg hq, if_neg hneg, Nat.pow_eq, Nat.mul_one, Nat.one_mul]
      have hexp : 10 * (e.toNat / 3 + 1) ≤ (q - 2).toNat + 1 := by omega
      calc 10 ^ e.toNat < 2 ^ (10 * (e.toNat / 3 + 1)) := pow_ten_lt _
        _ ≤ 2 ^ ((q - 2).toNat + 1) := Nat.pow_le_pow_right (by decide) hexp
        _ = 2 * 2 ^ (q - 2).toNat := by rw [Nat.pow_succ, Nat.mul_comm]

theorem mem_shortest (h : Canonical m q) (hm : 0 < m) :
    (interval m q).Mem (shortest m q).value := by
  have hlow : (interval m q).low ≤ (interval m q).center := Nat.mul_le_mul_right _ (Nat.sub_le _ _)
  rw [shortest, if_neg (by omega), Decimal.value_normalize]
  refine Interval.mem_search (scale_pos m q) hlow (by decide : 23 < 24) ?_
  have hfine := fine_grid h hm
  have hhigh : (interval m q).high
      = (interval m q).center + 2 * (if q < 2 then 1 else Nat.pow 2 (q - 2).toNat) :=
    Nat.add_mul _ _ _
  rw [hhigh, Nat.add_mul]
  exact Nat.add_lt_add_left hfine _

/-- The lower end of the interval of a double. -/
def lower (m : Nat) (q : Int) : ℚ :=
  (4 * m - if m = 2 ^ 52 ∧ -1074 < q then 1 else 2) * (2 : ℚ) ^ (q - 2)

def upper (m : Nat) (q : Int) : ℚ := (4 * m + 2) * (2 : ℚ) ^ (q - 2)

theorem factor_eq (q : Int) : ((if q < 2 then 1 else Nat.pow 2 (q - 2).toNat : ℕ) : ℚ)
    = (2 : ℚ) ^ (q - 2) * (if q < 2 then Nat.pow 2 (2 - q).toNat else 1 : ℕ) := by
  split
  · rename_i h
    obtain ⟨n, hn⟩ : ∃ n : Nat, q - 2 = -n := ⟨(2 - q).toNat, by omega⟩
    have hn' : (2 - q).toNat = n := by omega
    rw [hn, hn', zpow_neg]
    simp
  · rename_i h
    obtain ⟨n, hn⟩ : ∃ n : Nat, q - 2 = n := ⟨(q - 2).toNat, by omega⟩
    rw [hn]
    simp

theorem low_eq (hm : 0 < m) :
    ((interval m q).low : ℚ) = lower m q * (interval m q).scale := by
  have hbelow : (if m = 2 ^ 52 ∧ -1074 < q then 1 else 2) ≤ 4 * m := by
    split <;> omega
  change (((4 * m - if m = 2 ^ 52 ∧ -1074 < q then 1 else 2)
    * if q < 2 then 1 else Nat.pow 2 (q - 2).toNat : ℕ) : ℚ)
      = lower m q * (if q < 2 then Nat.pow 2 (2 - q).toNat else 1 : ℕ)
  rw [Nat.cast_mul, factor_eq, Nat.cast_sub hbelow, lower, ← mul_assoc]
  push_cast
  rfl

theorem high_eq : ((interval m q).high : ℚ) = upper m q * (interval m q).scale := by
  change (((4 * m + 2) * if q < 2 then 1 else Nat.pow 2 (q - 2).toNat : ℕ) : ℚ)
      = upper m q * (if q < 2 then Nat.pow 2 (2 - q).toNat else 1 : ℕ)
  rw [Nat.cast_mul, factor_eq, upper, ← mul_assoc]
  push_cast
  rfl

/-- What lies in the interval lies between its ends, and strictly so for an odd double. -/
theorem bounds_of_mem {x : ℚ} (hm : 0 < m) (h : (interval m q).Mem x) :
    lower m q ≤ x ∧ x ≤ upper m q
    ∧ (m % 2 = 1 → lower m q < x ∧ x < upper m q) := by
  have hscale : (0 : ℚ) < (interval m q).scale := by exact_mod_cast scale_pos m q
  unfold Interval.Mem at h
  rw [low_eq hm, high_eq] at h
  by_cases hclosed : (interval m q).closed = true
  · rw [if_pos hclosed] at h
    have heven : m % 2 = 0 := by simpa [interval] using hclosed
    refine ⟨le_of_mul_le_mul_right h.1 hscale, le_of_mul_le_mul_right h.2 hscale, fun hodd => ?_⟩
    omega
  · rw [if_neg hclosed] at h
    have hlow := lt_of_mul_lt_mul_right h.1 hscale.le
    have hhigh := lt_of_mul_lt_mul_right h.2 hscale.le
    exact ⟨hlow.le, hhigh.le, fun _ => ⟨hlow, hhigh⟩⟩

variable {m' : Nat} {q' : Int}

/-- The intervals of two doubles do not overlap, and they touch only if one of the two is odd. -/
theorem upper_le_lower (h : Canonical m q) (h' : Canonical m' q')
    (hlt : q < q' ∨ q = q' ∧ m < m') :
    upper m q ≤ lower m' q' ∧ (m % 2 = 0 → m' % 2 = 0 → upper m q < lower m' q') := by
  have hp : (0 : ℚ) < 2 ^ (q - 2) := by positivity
  obtain ⟨below, hbelow⟩ : ∃ below : ℕ, below = if m' = 2 ^ 52 ∧ -1074 < q' then 1 else 2 :=
    ⟨_, rfl⟩
  have hlower : lower m' q' = (4 * m' - below) * (2 : ℚ) ^ (q' - 2) := by
    rw [lower, hbelow]
    push_cast
    rfl
  rw [hlower, upper]
  rcases hlt with hq | ⟨rfl, hm⟩
  · have hle := h.le
    have hlt := h.lt
    have hm' : 2 ^ 52 ≤ m' := by
      by_contra hsub
      have := h'.subnormal (by omega)
      omega
    have hp' : (2 : ℚ) * 2 ^ (q - 2) ≤ 2 ^ (q' - 2) := by
      rw [← zpow_one_add₀ (by norm_num : (2 : ℚ) ≠ 0)]
      exact zpow_le_zpow_right₀ (by norm_num) (by omega)
    have hfour : 2 ^ 54 - 1 + below ≤ 4 * m' := by
      split at hbelow <;> omega
    have hfour' : (2 ^ 54 - 1 : ℚ) ≤ 4 * m' - below := by
      have : ((2 ^ 54 - 1 + below : ℕ) : ℚ) ≤ ((4 * m' : ℕ) : ℚ) := by exact_mod_cast hfour
      push_cast at this
      linarith
    have hgap : (2 ^ 54 - 1 : ℚ) * (2 * 2 ^ (q - 2)) ≤ (4 * m' - below) * 2 ^ (q' - 2) :=
      mul_le_mul hfour' hp' (by positivity) (by linarith)
    have hm : (m : ℚ) ≤ 2 ^ 53 - 1 := by
      have : m + 1 ≤ 2 ^ 53 := hlt
      have : ((m + 1 : ℕ) : ℚ) ≤ 2 ^ 53 := by exact_mod_cast this
      push_cast at this
      linarith
    refine ⟨le_trans ?_ hgap, fun heven _ => lt_of_lt_of_le ?_ hgap⟩
    · nlinarith
    · have hm : (m : ℚ) ≤ 2 ^ 53 - 2 := by
        have : m + 2 ≤ 2 ^ 53 := by omega
        have : ((m + 2 : ℕ) : ℚ) ≤ 2 ^ 53 := by exact_mod_cast this
        push_cast at this
        linarith
      nlinarith
  · have hbelow' : (below : ℚ) ≤ 2 := by
      have : below ≤ 2 := by split at hbelow <;> omega
      exact_mod_cast this
    have hm' : (m : ℚ) + 1 ≤ m' := by exact_mod_cast hm
    refine ⟨mul_le_mul_of_nonneg_right (by linarith) hp.le, fun heven heven' => ?_⟩
    have hm' : (m : ℚ) + 2 ≤ m' := by
      have : m + 2 ≤ m' := by omega
      exact_mod_cast this
    exact mul_lt_mul_of_pos_right (by linarith) hp

theorem not_mem_of_lt {x : ℚ} (h : Canonical m q) (h' : Canonical m' q') (hm : 0 < m)
    (hm' : 0 < m') (hlt : q < q' ∨ q = q' ∧ m < m') (hx : (interval m q).Mem x)
    (hx' : (interval m' q').Mem x) : False := by
  obtain ⟨-, hupper, hodd⟩ := bounds_of_mem hm hx
  obtain ⟨hlower, -, hodd'⟩ := bounds_of_mem hm' hx'
  obtain ⟨hle, heven⟩ := upper_le_lower h h' hlt
  rcases Nat.mod_two_eq_zero_or_one m with hzero | hone
  · rcases Nat.mod_two_eq_zero_or_one m' with hzero' | hone'
    · have := heven hzero hzero'
      linarith
    · have := (hodd' hone').1
      linarith
  · have := (hodd hone).2
    linarith

/-- No number lies in the intervals of two doubles. -/
theorem eq_of_mem {x : ℚ} (h : Canonical m q) (h' : Canonical m' q') (hm : 0 < m) (hm' : 0 < m')
    (hx : (interval m q).Mem x) (hx' : (interval m' q').Mem x) : m = m' ∧ q = q' := by
  by_contra hne
  have hlt : (q < q' ∨ q = q' ∧ m < m') ∨ (q' < q ∨ q' = q ∧ m' < m) := by omega
  rcases hlt with hlt | hlt
  · exact not_mem_of_lt h h' hm hm' hlt hx hx'
  · exact not_mem_of_lt h' h hm' hm hlt hx' hx

theorem value_shortest_pos (h : Canonical m q) (hm : 0 < m) : 0 < (shortest m q).value := by
  have hlower := (bounds_of_mem hm (mem_shortest h hm)).1
  refine lt_of_lt_of_le ?_ hlower
  have hm' : (1 : ℚ) ≤ m := by exact_mod_cast hm
  unfold lower
  refine mul_pos ?_ (by positivity)
  split <;> linarith

/-- Doubles are told apart by the shortest decimals that read back as them. -/
theorem shortest_inj (h : Canonical m q) (h' : Canonical m' q')
    (hvalue : (shortest m q).value = (shortest m' q').value) : m = m' ∧ q = q' := by
  have hzero : ∀ q, (shortest 0 q).value = 0 := fun q => by simp [shortest, Decimal.value]
  rcases Nat.eq_zero_or_pos m with rfl | hm
  · rcases Nat.eq_zero_or_pos m' with rfl | hm'
    · exact ⟨rfl, (h.subnormal (by decide)).trans (h'.subnormal (by decide)).symm⟩
    · have := value_shortest_pos h' hm'
      rw [← hvalue, hzero] at this
      exact absurd this (lt_irrefl 0)
  · rcases Nat.eq_zero_or_pos m' with rfl | hm'
    · have := value_shortest_pos h hm
      rw [hvalue, hzero] at this
      exact absurd this (lt_irrefl 0)
    · have hx := mem_shortest h hm
      rw [hvalue] at hx
      exact eq_of_mem h h' hm hm' hx (mem_shortest h' hm')

section Bits

variable (bits : UInt64)

theorem toNat_fraction : (bits &&& 0xfffffffffffff).toNat = bits.toNat % 2 ^ 52 := by
  rw [UInt64.toNat_and]
  exact Nat.and_two_pow_sub_one_eq_mod bits.toNat 52

theorem toNat_field : (bits >>> 52 &&& 0x7ff).toNat = bits.toNat / 2 ^ 52 % 2 ^ 11 := by
  rw [UInt64.toNat_and, UInt64.toNat_shiftRight]
  exact (Nat.and_two_pow_sub_one_eq_mod _ 11).trans (by rw [Nat.shiftRight_eq_div_pow]; rfl)

theorem isNegative_iff : isNegative bits = true ↔ bits.toNat / 2 ^ 63 ≠ 0 := by
  have hshift : (bits >>> 63).toNat = bits.toNat / 2 ^ 63 := by
    rw [UInt64.toNat_shiftRight]
    exact Nat.shiftRight_eq_div_pow _ 63
  rw [isNegative, bne_iff_ne, ne_eq, ← UInt64.toNat_inj, hshift]
  rfl

theorem significand_eq : significand bits = if bits.toNat / 2 ^ 52 % 2 ^ 11 = 0
    then bits.toNat % 2 ^ 52 else 2 ^ 52 + bits.toNat % 2 ^ 52 := by
  have hfield : (bits >>> 52 &&& 0x7ff == 0) = true ↔ bits.toNat / 2 ^ 52 % 2 ^ 11 = 0 := by
    rw [beq_iff_eq, ← UInt64.toNat_inj, toNat_field]
    rfl
  simp only [significand, toNat_fraction, hfield, Nat.pow_eq]

theorem exponent_eq : exponent bits = if bits.toNat / 2 ^ 52 % 2 ^ 11 = 0
    then -1074 else ((bits.toNat / 2 ^ 52 % 2 ^ 11 : ℕ) : ℤ) - 1075 := by
  simp only [exponent, toNat_field]

theorem canonical : Canonical (significand bits) (exponent bits) := by
  rw [significand_eq, exponent_eq]
  constructor <;> split <;> omega

end Bits

/-- A double is told by its sign, its significand and its exponent. -/
theorem eq_of_parts {a b : UInt64} (hsign : isNegative a = isNegative b)
    (hsignificand : significand a = significand b) (hexponent : exponent a = exponent b) :
    a = b := by
  have ha := a.toNat_lt
  have hb := b.toNat_lt
  apply UInt64.toNat_inj.1
  have hsign' : a.toNat / 2 ^ 63 ≠ 0 ↔ b.toNat / 2 ^ 63 ≠ 0 := by
    rw [← isNegative_iff, ← isNegative_iff, hsign]
  rw [significand_eq, significand_eq] at hsignificand
  rw [exponent_eq, exponent_eq] at hexponent
  split at hsignificand <;> split at hsignificand <;>
    simp only [*, if_true, if_false] at hexponent <;> omega

end Pipework.Binary64
