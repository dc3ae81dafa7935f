import Mathlib.Algebra.Order.Field.Power
import Mathlib.Data.Rat.Cast.Order
import Mathlib.Tactic.Linarith
import Mathlib.Tactic.NormNum
import Mathlib.Tactic.Positivity
import Mathlib.Tactic.Ring
import Pipework.Decimal.Binary

/-!
# The search for a short decimal

A grid of the multiples of a power of ten is searched for a point in an interval, and after it finer
grids. What is found lies in the interval, provided that one of the grids is fine enough.
-/

namespace Pipework.Binary64

/-- The number that a decimal stands for. -/
def Decimal.value (d : Decimal) : ℚ := d.digits * (10 : ℚ) ^ d.exponent

theorem Decimal.value_normalize (d : Decimal) (n : Nat) : (d.normalize n).value = d.value := by
  induction n generalizing d with
  | zero => rfl
  | succ n ih =>
    rw [normalize]
    split
    · rename_i h
      rw [ih]
      have hdigits : (d.digits : ℚ) = (d.digits / 10 : ℕ) * 10 := by
        have : d.digits = d.digits / 10 * 10 := by omega
        exact_mod_cast this
      rw [value, value, hdigits, zpow_add₀ (by norm_num : (10 : ℚ) ≠ 0)]
      simp only [zpow_one]
      ring
    · rfl

namespace Interval

/-- Whether a number lies in the interval. -/
def Mem (i : Interval) (x : ℚ) : Prop :=
  if i.closed then (i.low : ℚ) ≤ x * i.scale ∧ x * i.scale ≤ i.high
  else (i.low : ℚ) < x * i.scale ∧ x * i.scale < i.high

variable {i : Interval} {e : Int}

/-- What grid points are scaled by so that they are whole numbers. -/
def unit (e : Int) : Nat := if e < 0 then Nat.pow 10 (-e).toNat else 1

def multiple (e : Int) : Nat := if e < 0 then 1 else Nat.pow 10 e.toNat

theorem unit_pos (e : Int) : 0 < unit e := by
  unfold unit
  split
  · exact Nat.pow_pos (by decide)
  · decide

theorem multiple_pos (e : Int) : 0 < multiple e := by
  unfold multiple
  split
  · decide
  · exact Nat.pow_pos (by decide)

theorem zpow_mul_unit (e : Int) : (10 : ℚ) ^ e * unit e = multiple e := by
  unfold unit multiple
  split
  · rename_i h
    obtain ⟨n, rfl⟩ : ∃ n : Nat, e = -n := ⟨(-e).toNat, by omega⟩
    have hpow : (10 : ℚ) ^ n ≠ 0 := by positivity
    simp [zpow_neg, hpow]
  · rename_i h
    obtain ⟨n, rfl⟩ := Int.eq_ofNat_of_zero_le (not_lt.1 h)
    simp

/-- The whole numbers that a grid point is compared by stand for that point. -/
theorem scaled_eq (i : Interval) (e : Int) (c : Nat) :
    ((c * (i.scale * multiple e) : ℕ) : ℚ) = c * (10 : ℚ) ^ e * i.scale * unit e := by
  push_cast
  rw [← zpow_mul_unit]
  ring

theorem mem_of_holds {c : Nat} (h : i.holds (c * (i.scale * multiple e)) (unit e) = true) :
    i.Mem (c * (10 : ℚ) ^ e) := by
  have hunit : (0 : ℚ) < unit e := by exact_mod_cast unit_pos e
  have hpoint := scaled_eq i e c
  unfold holds at h
  unfold Mem
  cases hclosed : i.closed <;> simp only [hclosed, if_true, if_false, Bool.false_eq_true,
    Bool.and_eq_true, decide_eq_true_eq] at h ⊢
  · obtain ⟨hlow, hhigh⟩ := h
    have hlow' : (i.low : ℚ) * unit e < c * (10 : ℚ) ^ e * i.scale * unit e := by
      rw [← hpoint]
      exact_mod_cast hlow
    have hhigh' : c * (10 : ℚ) ^ e * i.scale * unit e < (i.high : ℚ) * unit e := by
      rw [← hpoint]
      exact_mod_cast hhigh
    exact ⟨lt_of_mul_lt_mul_right hlow' hunit.le, lt_of_mul_lt_mul_right hhigh' hunit.le⟩
  · obtain ⟨hlow, hhigh⟩ := h
    have hlow' : (i.low : ℚ) * unit e ≤ c * (10 : ℚ) ^ e * i.scale * unit e := by
      rw [← hpoint]
      exact_mod_cast hlow
    have hhigh' : c * (10 : ℚ) ^ e * i.scale * unit e ≤ (i.high : ℚ) * unit e := by
      rw [← hpoint]
      exact_mod_cast hhigh
    exact ⟨le_of_mul_le_mul_right hlow' hunit, le_of_mul_le_mul_right hhigh' hunit⟩

/-- A grid point that is found is one of the two next to the centre, and lies in the interval. -/
theorem holds_of_gridPoint? {c : Nat} (h : i.gridPoint? e = some c) :
    i.holds (c * (i.scale * multiple e)) (unit e) = true := by
  simp only [gridPoint?, ← unit.eq_1, ← multiple.eq_1] at h
  generalize i.center * unit e / (i.scale * multiple e) = lower at h
  split at h
  · rename_i hlower hupper
    rw [Bool.and_eq_true] at hlower
    split at h
    · cases h; exact hlower.1
    split at h
    · cases h; exact hupper
    split at h
    · cases h; exact hlower.1
    · cases h; exact hupper
  · rename_i hlower _
    rw [Bool.and_eq_true] at hlower
    cases h; exact hlower.1
  · rename_i hupper
    cases h; exact hupper
  · cases h

theorem mem_of_gridPoint? {c : Nat} (h : i.gridPoint? e = some c) : i.Mem (c * (10 : ℚ) ^ e) :=
  mem_of_holds (holds_of_gridPoint? h)

/-- A grid that is finer than the upper half of the interval has a point in it. -/
theorem gridPoint?_isSome (hscale : 0 < i.scale) (hlow : i.low ≤ i.center)
    (h : i.center * unit e + i.scale * multiple e < i.high * unit e) :
    (i.gridPoint? e).isSome := by
  have hupper : i.holds ((i.center * unit e / (i.scale * multiple e) + 1) * (i.scale * multiple e))
      (unit e) = true := by
    have hunit := unit_pos e
    have hstep : 0 < i.scale * multiple e := Nat.mul_pos hscale (multiple_pos e)
    generalize unit e = u at *
    generalize i.scale * multiple e = step at *
    have hlower : i.low * u ≤ i.center * u := Nat.mul_le_mul_right u hlow
    have hfloor := Nat.div_mul_le_self (i.center * u) step
    have hceil := Nat.lt_div_mul_add hstep (a := i.center * u)
    rw [holds, Nat.succ_mul]
    split <;> simp only [Bool.and_eq_true, decide_eq_true_eq] <;> omega
  simp only [gridPoint?, ← unit.eq_1, ← multiple.eq_1]
  rw [hupper]
  split
  · split
    · rfl
    split
    · rfl
    split <;> rfl
  · rfl
  · rfl
  · rename_i h
    cases h

theorem mem_search (hscale : 0 < i.scale) (hlow : i.low ≤ i.center) {n k : Nat} (hk : k < n)
    (h : i.center * unit (e - k) + i.scale * multiple (e - k) < i.high * unit (e - k)) :
    i.Mem (i.search e n).value := by
  induction n generalizing e k with
  | zero => omega
  | succ n ih =>
    rw [search]
    cases hg : i.gridPoint? e with
    | some c => exact mem_of_gridPoint? hg
    | none =>
      cases k with
      | zero =>
        have := gridPoint?_isSome hscale hlow (by simpa using h)
        rw [hg] at this
        cases this
      | succ k =>
        refine ih (e := e - 1) (k := k) (by omega) ?_
        have he : e - 1 - (k : Int) = e - ((k + 1 : Nat) : Int) := by push_cast; omega
        rw [he]
        exact h

end Interval

end Pipework.Binary64
