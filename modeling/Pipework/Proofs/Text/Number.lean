import Pipework.Text.Number

/-!
# Numbers read back

The decimal text of a number below a bound is read as that number.
-/

namespace Pipework.Text

theorem le_ofDigitChars (cs : List Char) (n : Nat) : n ≤ Nat.ofDigitChars 10 cs n := by
  induction cs generalizing n with
  | nil => simp
  | cons c cs ih =>
    rw [Nat.ofDigitChars_cons]
    have := ih (10 * n + (c.toNat - '0'.toNat))
    omega

/-- Digits are read up to the end as long as the number they make stays below the bound. -/
theorem appendDigits_of_isDigit {bound : Nat} {cs : List Char} {n : Nat}
    (hd : ∀ c ∈ cs, c.isDigit) (hb : Nat.ofDigitChars 10 cs n < bound) :
    appendDigits bound n cs = .ok (Nat.ofDigitChars 10 cs n) := by
  induction cs generalizing n with
  | nil => rfl
  | cons c cs ih =>
    rw [Nat.ofDigitChars_cons] at hb ⊢
    have hc : c.isDigit := hd c List.mem_cons_self
    have hn : ¬ bound ≤ 10 * n + (c.toNat - '0'.toNat) := by
      have := le_ofDigitChars cs (10 * n + (c.toNat - '0'.toNat))
      omega
    rw [appendDigits, hc, Bool.not_true, if_neg Bool.false_ne_true, if_neg hn]
    exact ih (fun d h => hd d (List.mem_cons_of_mem _ h)) hb

theorem natural?_toString {bound n : Nat} (h : n < bound) :
    natural? bound (toString n) = .ok n := by
  have hd : ∀ c ∈ Nat.toDigits 10 n, c.isDigit := fun c hc =>
    Nat.isDigit_of_mem_toDigits (by decide) (by decide) hc
  have hb : Nat.ofDigitChars 10 (Nat.toDigits 10 n) 0 < bound := by
    rwa [Nat.ofDigitChars_ten_toDigits]
  have hread := appendDigits_of_isDigit hd hb
  rw [Nat.ofDigitChars_ten_toDigits] at hread
  rw [natural?, Nat.toString_eq_repr, Nat.toList_repr]
  -- The text is not empty, and no sign stands before it.
  match hcs : Nat.toDigits 10 n with
  | [] => exact absurd hcs Nat.toDigits_ne_nil
  | c :: cs =>
    rw [hcs] at hread hd
    have hc : c ≠ '+' := by
      rintro rfl
      exact absurd (hd '+' List.mem_cons_self) (by decide)
    split
    · rename_i heq; cases heq
    · rename_i heq; cases heq; exact absurd rfl hc
    · rename_i heq; cases heq; exact absurd rfl hc
    · exact hread

end Pipework.Text
