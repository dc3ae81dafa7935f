import Mathlib.Tactic.FieldSimp
import Mathlib.Tactic.Ring
import Pipework.Json.Printer
import Pipework.Proofs.Decimal.Shortest

/-!
# Decimal numbers read back

A reader goes through the text of a number from left to right. Whatever layout the text has, the
reader ends with the number that was written, and it has met a point or an exponent exactly when the
number is a double.
-/

namespace Pipework.Decimal

/-- Where in a text a reader stands. -/
inductive NumeralPart where
  | whole
  | fraction
  | exponent
  deriving DecidableEq

/-- What has been read of the text of a number. -/
structure Numeral where
  part : NumeralPart := .whole
  minus : Bool := false
  digits : Nat := 0
  /-- How many of the digits stand after the point. -/
  places : Nat := 0
  exponentMinus : Bool := false
  power : Nat := 0

namespace Numeral

def next (r : Numeral) (c : Char) : Numeral :=
  match r.part with
  | .whole =>
    if c = '-' then { r with minus := true }
    else if c = '.' then { r with part := .fraction }
    else if c = 'e' then { r with part := .exponent }
    else { r with digits := 10 * r.digits + (c.toNat - '0'.toNat) }
  | .fraction =>
    if c = 'e' then { r with part := .exponent }
    else { r with digits := 10 * r.digits + (c.toNat - '0'.toNat), places := r.places + 1 }
  | .exponent =>
    if c = '-' then { r with exponentMinus := true }
    else if c = '+' then r
    else { r with power := 10 * r.power + (c.toNat - '0'.toNat) }

def read (r : Numeral) (cs : List Char) : Numeral := cs.foldl next r

@[simp] theorem read_nil (r : Numeral) : r.read [] = r := rfl

@[simp] theorem read_cons (r : Numeral) (c : Char) (cs : List Char) :
    r.read (c :: cs) = (r.next c).read cs := rfl

@[simp] theorem read_append (r : Numeral) (cs ds : List Char) :
    r.read (cs ++ ds) = (r.read cs).read ds := List.foldl_append

/-- The number that was read, without its sign. -/
def value (r : Numeral) : ℚ :=
  r.digits * (10 : ℚ) ^ ((if r.exponentMinus then -r.power else r.power : ℤ) - r.places)

section Digits

variable {cs : List Char}

theorem ne_of_isDigit {c d : Char} (hc : c.isDigit) (hd : d.isDigit = false) : c ≠ d := by
  rintro rfl
  rw [hd] at hc
  cases hc

variable (h : ∀ c ∈ cs, c.isDigit)
include h

theorem read_whole (r : Numeral) (hr : r.part = .whole) :
    r.read cs = { r with digits := Nat.ofDigitChars 10 cs r.digits } := by
  induction cs generalizing r with
  | nil => rfl
  | cons c cs ih =>
    have hc := h c List.mem_cons_self
    have hnext : r.next c = { r with digits := 10 * r.digits + (c.toNat - '0'.toNat) } := by
      simp only [next, hr, if_neg (ne_of_isDigit hc (by decide : '-'.isDigit = false)),
        if_neg (ne_of_isDigit hc (by decide : '.'.isDigit = false)),
        if_neg (ne_of_isDigit hc (by decide : 'e'.isDigit = false))]
    rw [read_cons, hnext, ih (fun d hd => h d (List.mem_cons_of_mem c hd))
      { r with digits := 10 * r.digits + (c.toNat - '0'.toNat) } hr, Nat.ofDigitChars_cons]

theorem read_fraction (r : Numeral) (hr : r.part = .fraction) :
    r.read cs = { r with digits := Nat.ofDigitChars 10 cs r.digits,
                         places := r.places + cs.length } := by
  induction cs generalizing r with
  | nil => rfl
  | cons c cs ih =>
    have hc := h c List.mem_cons_self
    have hnext : r.next c = { r with digits := 10 * r.digits + (c.toNat - '0'.toNat),
                                     places := r.places + 1 } := by
      simp only [next, hr, if_neg (ne_of_isDigit hc (by decide : 'e'.isDigit = false))]
    rw [read_cons, hnext, ih (fun d hd => h d (List.mem_cons_of_mem c hd))
      { r with digits := 10 * r.digits + (c.toNat - '0'.toNat), places := r.places + 1 } hr,
      Nat.ofDigitChars_cons, List.length_cons, Nat.add_assoc, Nat.add_comm 1]

theorem read_exponent (r : Numeral) (hr : r.part = .exponent) :
    r.read cs = { r with power := Nat.ofDigitChars 10 cs r.power } := by
  induction cs generalizing r with
  | nil => rfl
  | cons c cs ih =>
    have hc := h c List.mem_cons_self
    have hnext : r.next c = { r with power := 10 * r.power + (c.toNat - '0'.toNat) } := by
      simp only [next, hr, if_neg (ne_of_isDigit hc (by decide : '-'.isDigit = false)),
        if_neg (ne_of_isDigit hc (by decide : '+'.isDigit = false))]
    rw [read_cons, hnext, ih (fun d hd => h d (List.mem_cons_of_mem c hd))
      { r with power := 10 * r.power + (c.toNat - '0'.toNat) } hr, Nat.ofDigitChars_cons]

end Digits

theorem isDigit_of_mem_toDigits {n : Nat} : ∀ c ∈ Nat.toDigits 10 n, c.isDigit :=
  fun _ => Nat.isDigit_of_mem_toDigits (by decide) (by decide)

theorem isDigit_of_mem_replicate {n : Nat} : ∀ c ∈ List.replicate n '0', c.isDigit := by
  intro c hc
  rw [List.eq_of_mem_replicate hc]
  decide

/-- The text stands for a decimal number that is not an integer, whatever sign was read before. -/
def Denotes (cs : List Char) (x : ℚ) : Prop :=
  ∀ minus, (read { minus } cs).part ≠ .whole ∧ (read { minus } cs).minus = minus
    ∧ (read { minus } cs).value = x

theorem read_withPoint {digits : List Char} (h : ∀ c ∈ digits, c.isDigit) (n : Nat) (minus : Bool) :
    read { minus } (withPoint digits n).toList
      = { part := .fraction, minus, digits := Nat.ofDigitChars 10 digits 0,
          places := digits.length - n } := by
  have htext : (withPoint digits n).toList = digits.take n ++ '.' :: digits.drop n := by
    simp [withPoint]
  rw [htext, read_append, read_whole (fun c hc => h c (List.mem_of_mem_take hc)) _ rfl, read_cons]
  refine (read_fraction (fun c hc => h c (List.mem_of_mem_drop hc)) _ rfl).trans ?_
  simp only [next, ← Nat.ofDigitChars_append, List.take_append_drop, List.length_drop,
    Nat.zero_add, if_neg (by decide : ¬ '.' = '-'), if_true]

section Layouts

variable (d : Binary64.Decimal)

theorem value_eq {r : Numeral} (hdigits : r.digits = d.digits)
    (hexponent : (if r.exponentMinus then -r.power else r.power : ℤ) - r.places = d.exponent) :
    r.value = d.value := by
  rw [value, hdigits, hexponent, Binary64.Decimal.value]

/-- All digits stand before the point, filled up with zeros. -/
theorem denotes_filled (h : 0 ≤ d.exponent) :
    Denotes (String.ofList (Nat.toDigits 10 d.digits) ++ zeros d.exponent.toNat ++ ".0").toList
      d.value := by
  intro minus
  have hdigits : ∀ c ∈ Nat.toDigits 10 d.digits ++ List.replicate d.exponent.toNat '0',
      c.isDigit := List.forall_mem_append.2 ⟨isDigit_of_mem_toDigits, isDigit_of_mem_replicate⟩
  have hread : read { minus }
      (String.ofList (Nat.toDigits 10 d.digits) ++ zeros d.exponent.toNat ++ ".0").toList
      = { part := .fraction, minus, digits := 10 * (10 ^ d.exponent.toNat * d.digits),
          places := 1 } := by
    rw [String.toList_append, String.toList_append, String.toList_ofList, zeros,
      String.toList_ofList, read_append, read_whole hdigits _ rfl, Nat.ofDigitChars_append,
      Nat.ofDigitChars_ten_toDigits, Nat.ofDigitChars_replicate_zero]
    rfl
  rw [hread]
  refine ⟨nofun, rfl, ?_⟩
  obtain ⟨n, hn⟩ := Int.eq_ofNat_of_zero_le h
  simp only [value, Binary64.Decimal.value, hn, Int.toNat_natCast, zpow_natCast]
  push_cast
  field_simp

/-- The point stands between the digits. -/
theorem denotes_withPoint {n : Nat} (h : (n : ℤ) = (Nat.toDigits 10 d.digits).length + d.exponent)
    (hexponent : d.exponent ≤ 0) :
    Denotes (withPoint (Nat.toDigits 10 d.digits) n).toList d.value := by
  intro minus
  rw [read_withPoint isDigit_of_mem_toDigits]
  refine ⟨nofun, rfl, value_eq d Nat.ofDigitChars_ten_toDigits ?_⟩
  simp only [Bool.false_eq_true, if_false]
  omega

/-- Zeros stand between the point and the digits. -/
theorem denotes_fraction {n : Nat} (h : -(n : ℤ) = (Nat.toDigits 10 d.digits).length + d.exponent) :
    Denotes ("0." ++ zeros n ++ String.ofList (Nat.toDigits 10 d.digits)).toList d.value := by
  intro minus
  have hdigits : ∀ c ∈ List.replicate n '0' ++ Nat.toDigits 10 d.digits, c.isDigit :=
    List.forall_mem_append.2 ⟨isDigit_of_mem_replicate, isDigit_of_mem_toDigits⟩
  have hread : read { minus }
      ("0." ++ zeros n ++ String.ofList (Nat.toDigits 10 d.digits)).toList
      = { part := .fraction, minus, digits := d.digits,
          places := n + (Nat.toDigits 10 d.digits).length } := by
    have hpoint : read { minus } "0.".toList = { part := .fraction, minus } := rfl
    rw [String.append_assoc, String.toList_append, read_append, hpoint, String.toList_append,
      zeros, String.toList_ofList, String.toList_ofList, read_fraction hdigits _ rfl,
      Nat.ofDigitChars_append, Nat.ofDigitChars_replicate_zero, Nat.mul_zero,
      Nat.ofDigitChars_ten_toDigits, List.length_append, List.length_replicate, Nat.zero_add]
  rw [hread]
  refine ⟨nofun, rfl, value_eq d rfl ?_⟩
  simp only [Bool.false_eq_true, if_false]
  omega

/-- What comes before an exponent: one digit, and the others after a point. -/
def leading (digits : List Char) : String :=
  if digits.length = 1 then String.ofList digits else withPoint digits 1

theorem read_leading {digits : List Char} (h : ∀ c ∈ digits, c.isDigit) (minus : Bool) :
    ∃ part, part ≠ .exponent ∧ read { minus } (leading digits).toList
      = { part, minus, digits := Nat.ofDigitChars 10 digits 0, places := digits.length - 1 } := by
  unfold leading
  split
  · rename_i hlength
    refine ⟨.whole, nofun, ?_⟩
    rw [String.toList_ofList, read_whole h _ rfl, hlength]
  · exact ⟨.fraction, nofun, read_withPoint h 1 minus⟩

theorem read_e {r : Numeral} (h : r.part ≠ .exponent) :
    r.read "e".toList = { r with part := .exponent } := by
  have htext : "e".toList = ['e'] := rfl
  rw [htext, read_cons, read_nil]
  cases hr : r.part with
  | whole => simp [next, hr]
  | fraction => simp [next, hr]
  | exponent => exact absurd hr h

theorem read_plus {cs : List Char} (h : ∀ c ∈ cs, c = '+') {r : Numeral} (hr : r.part = .exponent) :
    r.read cs = r := by
  induction cs with
  | nil => rfl
  | cons c cs ih =>
    have hnext : r.next c = r := by simp [next, hr, h c List.mem_cons_self]
    rw [read_cons, hnext, ih fun d hd => h d (List.mem_cons_of_mem c hd)]

theorem read_exponentSign {sign : String} (h : ∀ c ∈ sign.toList, c = '+') (e : ℤ) {r : Numeral}
    (hr : r.part = .exponent) (hminus : r.exponentMinus = false) :
    r.read (if e < 0 then "-" else sign).toList = { r with exponentMinus := decide (e < 0) } := by
  split
  · rename_i he
    have htext : "-".toList = ['-'] := rfl
    simp [htext, next, hr, he]
  · rename_i he
    simp [read_plus h hr, he, ← hminus]

/-- The exponent tells how far the point has been moved. -/
theorem denotes_scientific {sign : String} (hsign : ∀ c ∈ sign.toList, c = '+') {e : ℤ}
    (h : e = (Nat.toDigits 10 d.digits).length + d.exponent - 1) :
    Denotes (leading (Nat.toDigits 10 d.digits) ++ "e" ++ (if e < 0 then "-" else sign)
      ++ toString e.natAbs).toList d.value := by
  intro minus
  obtain ⟨part, hpart, hleading⟩ := read_leading
    (isDigit_of_mem_toDigits : ∀ c ∈ Nat.toDigits 10 d.digits, c.isDigit) minus
  have hread : read { minus } (leading (Nat.toDigits 10 d.digits) ++ "e"
      ++ (if e < 0 then "-" else sign) ++ toString e.natAbs).toList
      = { part := .exponent, minus, digits := d.digits,
          places := (Nat.toDigits 10 d.digits).length - 1, exponentMinus := decide (e < 0),
          power := e.natAbs } := by
    rw [String.toList_append, String.toList_append, String.toList_append, read_append, read_append,
      read_append, hleading, Nat.ofDigitChars_ten_toDigits, read_e hpart,
      read_exponentSign hsign e rfl rfl, Nat.toString_eq_repr, Nat.toList_repr,
      read_exponent isDigit_of_mem_toDigits _ rfl, Nat.ofDigitChars_ten_toDigits]
  rw [hread]
  have hlength : 0 < (Nat.toDigits 10 d.digits).length := Nat.length_toDigits_pos
  refine ⟨nofun, rfl, value_eq d rfl ?_⟩
  simp only [decide_eq_true_eq]
  split <;> omega

/-- Whatever layout a decimal number is given, its text stands for it. -/
theorem denotes_text (f : Format) (h : ∀ c ∈ f.exponentSign.toList, c = '+') :
    Denotes (f.text d).toList d.value := by
  unfold Format.text
  extract_lets digits point e head
  have hpoint : point = digits.length + d.exponent := rfl
  split
  · rename_i hzero
    intro minus
    have hread : read { minus } "0.0".toList = { part := .fraction, minus, places := 1 } := rfl
    rw [hread]
    exact ⟨nofun, rfl, by simp [value, Binary64.Decimal.value, hzero]⟩
  · split
    · split
      · rename_i hexponent
        exact denotes_filled d hexponent
      · split
        · exact denotes_withPoint d ((Int.toNat_of_nonneg (by omega)).trans hpoint) (by omega)
        · refine denotes_fraction d ?_
          rw [Int.toNat_of_nonneg (by omega), Int.neg_neg]
    · exact denotes_scientific d h rfl

end Layouts

/-- The text of a double shows its sign and its shortest decimal. -/
theorem read_double (f : Format) (h : ∀ c ∈ f.exponentSign.toList, c = '+') (bits : UInt64) :
    (read {} (f.double bits).toList).part ≠ .whole
    ∧ (read {} (f.double bits).toList).minus = Binary64.isNegative bits
    ∧ (read {} (f.double bits).toList).value
      = (Binary64.shortest (Binary64.significand bits) (Binary64.exponent bits)).value := by
  have hsign : read {} (if Binary64.isNegative bits then "-" else "").toList
      = { minus := Binary64.isNegative bits } := by
    cases Binary64.isNegative bits <;> rfl
  rw [Format.double, String.toList_append, read_append, hsign]
  exact denotes_text _ f h (Binary64.isNegative bits)

theorem read_int (n : ℤ) :
    read {} (toString n).toList = { minus := decide (n < 0), digits := n.natAbs } := by
  cases n with
  | ofNat n =>
    change read {} (toString n).toList = { minus := decide ((n : ℤ) < 0), digits := n }
    have hminus : decide ((n : ℤ) < 0) = false := by simp
    rw [hminus, Nat.toString_eq_repr, Nat.toList_repr, read_whole isDigit_of_mem_toDigits _ rfl,
      Nat.ofDigitChars_ten_toDigits]
  | negSucc n =>
    change read {} ("-" ++ toString (n + 1)).toList
      = { minus := decide (Int.negSucc n < 0), digits := n + 1 }
    have hminus : read {} "-".toList = { minus := true } := rfl
    rw [String.toList_append, read_append, hminus, Nat.toString_eq_repr, Nat.toList_repr,
      read_whole isDigit_of_mem_toDigits _ rfl, Nat.ofDigitChars_ten_toDigits]
    simp

end Numeral

end Pipework.Decimal
