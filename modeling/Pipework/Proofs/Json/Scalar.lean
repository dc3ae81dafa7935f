import Pipework.Json.Parser
import Pipework.Proofs.Decimal.Numeral
import Pipework.Proofs.Json.Compact

/-!
# The texts of numbers and strings

A number is told by what a reader makes of its text, and a string by what the parser reads between
the quotes. Neither goes on into what stands after it.
-/

namespace Pipework.Json

open Decimal

theorem eq_plus_of_mem_exponentSign : ∀ c ∈ decimalFormat.exponentSign.toList, c = '+' := by
  intro c hc
  have htext : decimalFormat.exponentSign.toList = ['+'] := rfl
  rw [htext] at hc
  exact List.mem_singleton.1 hc

theorem read_numberText_double (bits : UInt64) :
    (Numeral.read {} (numberText (.double bits)).toList).part ≠ .whole
    ∧ (Numeral.read {} (numberText (.double bits)).toList).minus = Binary64.isNegative bits
    ∧ (Numeral.read {} (numberText (.double bits)).toList).value
      = (Binary64.shortest (Binary64.significand bits) (Binary64.exponent bits)).value :=
  Numeral.read_double decimalFormat eq_plus_of_mem_exponentSign bits

theorem read_numberText_int (n : ℤ) : Numeral.read {} (numberText (.int n)).toList
    = { minus := decide (n < 0), digits := n.natAbs } :=
  Numeral.read_int n

theorem numberText_inj {a b : Number} (h : numberText a = numberText b) : a = b := by
  cases a with
  | int m =>
    have ha := read_numberText_int m
    rw [h] at ha
    cases b with
    | int n =>
      have hb := ha.symm.trans (read_numberText_int n)
      simp only [Numeral.mk.injEq, decide_eq_decide, true_and, and_true] at hb
      have heq : m = n := by omega
      rw [heq]
    | double bits =>
      have hpart := (read_numberText_double bits).1
      rw [ha] at hpart
      exact absurd rfl hpart
  | double bits =>
    obtain ⟨hpart, hminus, hvalue⟩ := read_numberText_double bits
    rw [h] at hpart hminus hvalue
    cases b with
    | int n =>
      rw [read_numberText_int n] at hpart
      exact absurd rfl hpart
    | double bits' =>
      obtain ⟨-, hminus', hvalue'⟩ := read_numberText_double bits'
      obtain ⟨hsignificand, hexponent⟩ := Binary64.shortest_inj (Binary64.canonical bits)
        (Binary64.canonical bits') (hvalue.symm.trans hvalue')
      rw [Binary64.eq_of_parts (hminus.symm.trans hminus') hsignificand hexponent]

theorem exists_numberText (n : Number) : ∃ c cs, (numberText n).toList = c :: cs := by
  refine List.exists_cons_of_ne_nil fun hnil => ?_
  cases n with
  | int value =>
    cases value with
    | ofNat n =>
      change (toString n).toList = [] at hnil
      rw [Nat.toString_eq_repr, Nat.toList_repr] at hnil
      exact Nat.toDigits_ne_nil hnil
    | negSucc n =>
      change ("-" ++ toString (n + 1)).toList = [] at hnil
      rw [String.toList_append] at hnil
      exact absurd (List.append_eq_nil_iff.1 hnil).1 (by decide)
  | double bits =>
    have hpart := (read_numberText_double bits).1
    rw [hnil] at hpart
    exact hpart rfl

theorem hexDigit?_digitChar : ∀ d < 16, hexDigit? (Nat.digitChar d) = some d := by decide

theorem unicodeEscape?_hexPair {c : Char} (h : c.toNat < 0x20) (rest : List Char) :
    unicodeEscape? ('0' :: '0' :: (hexPair c.toNat ++ rest)) = some (c, rest) := by
  have hzero : hexDigit? '0' = some 0 := rfl
  have hvalue : ((0 * 16 + 0) * 16 + c.toNat / 16) * 16 + c.toNat % 16 = c.toNat := by omega
  have hquad : hexQuad? ('0' :: '0' :: (hexPair c.toNat ++ rest)) = some (c.toNat, rest) := by
    simp only [hexPair, List.cons_append, List.nil_append, hexQuad?, hzero,
      hexDigit?_digitChar _ (by omega : c.toNat / 16 < 16),
      hexDigit?_digitChar _ (by omega : c.toNat % 16 < 16), Option.bind_eq_bind, Option.bind_some,
      hvalue]
  rw [unicodeEscape?, hquad]
  simp only [Option.bind_eq_bind, Option.bind_some]
  rw [if_neg (by omega), if_neg (by omega), Char.ofNat_toNat]

/-- What stands for a character inside quotes is read as that character. -/
theorem stringTail?_escape (n : Nat) (acc : List Char) (c : Char) (rest : List Char) :
    stringTail? (n + 1) acc (escape c ++ rest) = stringTail? n (c :: acc) rest := by
  unfold escape
  iterate 7
    split
    · rename_i h
      rw [h]
      rfl
  split
  · rename_i h
    have hread := unicodeEscape?_hexPair h rest
    simp [stringTail?, hread]
  · rename_i _ hback _ _ _ _ _ hcontrol
    simp [stringTail?, hback, hcontrol]

/-- A string in quotes is read back. -/
theorem stringTail?_quote {n : Nat} {cs : List Char} (h : cs.length < n) (acc rest : List Char) :
    stringTail? n acc (cs.flatMap escape ++ '"' :: rest)
      = some (String.ofList (acc.reverse ++ cs), rest) := by
  induction cs generalizing n acc with
  | nil =>
    cases n with
    | zero => cases h
    | succ n => simp [stringTail?]
  | cons c cs ih =>
    cases n with
    | zero => cases h
    | succ n =>
      rw [List.flatMap_cons, List.append_assoc, stringTail?_escape,
        ih (Nat.lt_of_succ_lt_succ h)]
      simp

theorem toList_quote (s : String) :
    (quote s).toList = '"' :: (s.toList.flatMap escape ++ ['"']) := by
  rw [quote, String.toList_append, String.toList_append,
    String.toList_ofList (l := s.toList.flatMap escape)]
  rfl

theorem quote_append_inj {s t : String} {u v : List Char}
    (h : (quote s).toList ++ u = (quote t).toList ++ v) : s = t ∧ u = v := by
  rw [toList_quote, toList_quote, List.cons_append, List.cons_append, List.cons_inj_right,
    List.append_assoc, List.append_assoc, List.singleton_append, List.singleton_append] at h
  have hs : s.toList.length < s.toList.length + t.toList.length + 1 := by omega
  have ht : t.toList.length < s.toList.length + t.toList.length + 1 := by omega
  have hread := stringTail?_quote hs [] u
  rw [h, stringTail?_quote ht [] v, Option.some.injEq, Prod.mk.injEq, List.reverse_nil,
    List.nil_append, List.nil_append, String.ofList_inj, String.toList_inj] at hread
  exact ⟨hread.1.symm, hread.2.symm⟩

/-- What may follow a value inside an array or an object. -/
def Delimited (cs : List Char) : Prop := ∀ c ∈ cs.head?, c = ',' ∨ c = ']' ∨ c = '\x7d'

/-- No number goes on past a delimiter. -/
theorem numberText_append_inj {a b : Number} {s t : List Char} (hs : Delimited s)
    (ht : Delimited t) (h : (numberText a).toList ++ s = (numberText b).toList ++ t) :
    a = b ∧ s = t := by
  -- What one number has beyond the other would begin with a delimiter.
  have hdelimited : ∀ {n : Number} {u w t : List Char}, (numberText n).toList = u ++ w →
      Delimited (w ++ t) → w = [] := by
    intro n u w t htext hw
    cases w with
    | nil => rfl
    | cons c w =>
      have hc : NumeralChar c := numeralText_numberText n c (by simp [htext])
      rcases hw c rfl with rfl | rfl | rfl <;> exact absurd hc (by decide)
  rcases List.append_eq_append_iff.1 h with ⟨w, hb, rfl⟩ | ⟨w, ha, rfl⟩
  · cases hdelimited hb hs
    rw [List.append_nil, String.toList_inj] at hb
    exact ⟨(numberText_inj hb).symm, rfl⟩
  · cases hdelimited ha ht
    rw [List.append_nil, String.toList_inj] at ha
    exact ⟨numberText_inj ha, rfl⟩

end Pipework.Json
