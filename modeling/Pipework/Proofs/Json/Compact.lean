import Pipework.Json.Printer
import Pipework.Proofs.Json.Scan

/-!
# Compact texts next to other texts

The compact text of every value is balanced, whatever its strings hold, and that of an object is a
block. So where the text of an object ends or begins is never in doubt.
-/

namespace Pipework

open Json Json.Scan

/-- A text without quotes, backslashes and brackets. -/
def PlainText (s : String) : Prop := ∀ c ∈ s.toList, Plain c

instance (s : String) : Decidable (PlainText s) := List.decidableBAll Plain s.toList

theorem PlainText.balanced {s : String} (h : PlainText s) : Balanced .outside s.toList := .of_plain h

/-- A character that may stand in the text of a number. -/
def NumeralChar (c : Char) : Prop := c.isDigit ∨ c ∈ ['-', '+', '.', 'e']

instance : DecidablePred NumeralChar := fun c =>
  inferInstanceAs (Decidable (c.isDigit ∨ c ∈ ['-', '+', '.', 'e']))

theorem NumeralChar.plain {c : Char} (h : NumeralChar c) : Plain c := by
  intro hc
  simp only [List.mem_cons, List.not_mem_nil, or_false] at hc
  rcases hc with rfl | rfl | rfl | rfl | rfl | rfl <;> exact absurd h (by decide)

theorem numeralChar_of_mem_toDigits {c : Char} {n : Nat} (h : c ∈ Nat.toDigits 10 n) :
    NumeralChar c :=
  .inl (Nat.isDigit_of_mem_toDigits (by decide) (by decide) h)

def NumeralText (s : String) : Prop := ∀ c ∈ s.toList, NumeralChar c

namespace NumeralText

instance (s : String) : Decidable (NumeralText s) := List.decidableBAll NumeralChar s.toList

theorem append {s t : String} (hs : NumeralText s) (ht : NumeralText t) :
    NumeralText (s ++ t) := by
  intro c hc
  rw [String.toList_append, List.mem_append] at hc
  exact hc.elim (hs c) (ht c)

theorem ofList {cs : List Char} (h : ∀ c ∈ cs, NumeralChar c) :
    NumeralText (String.ofList cs) := by
  intro c hc
  rw [String.toList_ofList] at hc
  exact h c hc

theorem plainText {s : String} (h : NumeralText s) : PlainText s := fun c hc => (h c hc).plain

end NumeralText

theorem numeralText_toString (n : Nat) : NumeralText (toString n) := by
  intro c hc
  rw [Nat.toString_eq_repr, Nat.toList_repr] at hc
  exact numeralChar_of_mem_toDigits hc

namespace Decimal

theorem numeralText_zeros (n : Nat) : NumeralText (zeros n) :=
  .ofList fun c hc => by rw [List.eq_of_mem_replicate hc]; decide

theorem numeralText_withPoint {digits : List Char} (h : ∀ c ∈ digits, NumeralChar c) (n : Nat) :
    NumeralText (withPoint digits n) :=
  ((NumeralText.ofList fun c hc => h c (List.mem_of_mem_take hc)).append (by decide)).append
    (.ofList fun c hc => h c (List.mem_of_mem_drop hc))

theorem numeralText_text (f : Format) (hf : NumeralText f.exponentSign) (d : Binary64.Decimal) :
    NumeralText (f.text d) := by
  have hdigits : ∀ c ∈ Nat.toDigits 10 d.digits, NumeralChar c :=
    fun c => numeralChar_of_mem_toDigits
  simp only [Format.text]
  split
  · decide
  · split
    · split
      · exact ((NumeralText.ofList hdigits).append (numeralText_zeros _)).append (by decide)
      · split
        · exact numeralText_withPoint hdigits _
        · exact ((by decide : NumeralText "0.").append (numeralText_zeros _)).append
            (.ofList hdigits)
    · refine ((NumeralText.append ?_ (by decide)).append ?_).append (numeralText_toString _)
      · split
        · exact .ofList hdigits
        · exact numeralText_withPoint hdigits 1
      · split
        · decide
        · exact hf

end Decimal

namespace Json

theorem numeralText_numberText (n : Number) : NumeralText (numberText n) := by
  cases n with
  | int value =>
    cases value with
    | ofNat n => exact numeralText_toString n
    | negSucc n => exact (by decide : NumeralText "-").append (numeralText_toString (n + 1))
  | double bits =>
    refine NumeralText.append ?_ (Decimal.numeralText_text _ (by decide) _)
    split <;> decide

theorem inside_digitChar (n : Nat) : Balanced .inside [Nat.digitChar n] :=
  .inside_singleton (by simp) (by simp)

/-- What stands for a character inside quotes is read as text. -/
theorem balanced_escape (c : Char) : Balanced .inside (escape c) := by
  unfold escape
  split
  · exact .inside_escaped '"'
  split
  · exact .inside_escaped '\\'
  split
  · exact .inside_escaped 'n'
  split
  · exact .inside_escaped 'r'
  split
  · exact .inside_escaped 't'
  split
  · exact .inside_escaped 'b'
  split
  · exact .inside_escaped 'f'
  split
  · have hzero : Balanced .inside ['0'] := .inside_singleton (by decide) (by decide)
    exact (((Balanced.inside_escaped 'u').append hzero).append hzero).append
      ((inside_digitChar (c.toNat / 16)).append (inside_digitChar (c.toNat % 16)))
  · rename_i hquote hback _ _ _ _ _ _
    exact .inside_singleton hquote hback

theorem balanced_quote (s : String) : Balanced .outside (quote s).toList := by
  have hbody : Balanced .inside (s.toList.flatMap escape) := .flatMap fun c _ => balanced_escape c
  rw [quote, String.toList_append, String.toList_append,
    String.toList_ofList (l := s.toList.flatMap escape)]
  exact hbody.quoted

theorem balanced_intercalate {texts : List String}
    (h : ∀ t ∈ texts, Balanced .outside t.toList) :
    Balanced .outside (",".intercalate texts).toList := by
  induction texts with
  | nil => exact .nil
  | cons t texts ih =>
    have ht := h t List.mem_cons_self
    have htexts := ih fun u hu => h u (List.mem_cons_of_mem t hu)
    by_cases hnil : texts = []
    · rwa [hnil, String.intercalate_singleton]
    · rw [String.intercalate_cons_of_ne_nil hnil, String.toList_append, String.toList_append]
      exact (ht.append (PlainText.balanced (by decide))).append htexts

mutual

theorem balanced_compact : (x : Json) → Balanced .outside (compact x).toList
  | .null => PlainText.balanced (by decide)
  | .bool true => PlainText.balanced (by decide)
  | .bool false => PlainText.balanced (by decide)
  | .num n => (numeralText_numberText n).plainText.balanced
  | .str s => balanced_quote s
  | .arr items => by
    rw [compact, String.toList_append, String.toList_append]
    exact balanced_enclosed (.inr rfl) (.inr rfl)
      (balanced_intercalate (balanced_compactItems items))
  | .obj members => by
    rw [compact, String.toList_append, String.toList_append]
    exact balanced_enclosed (.inl rfl) (.inl rfl)
      (balanced_intercalate (balanced_compactMembers members))

theorem balanced_compactItems :
    (items : List Json) → ∀ t ∈ compactItems items, Balanced .outside t.toList
  | [] => by simp [compactItems]
  | x :: xs => by
    simp only [compactItems, List.mem_cons, forall_eq_or_imp]
    exact ⟨balanced_compact x, balanced_compactItems xs⟩

theorem balanced_compactMembers :
    (members : List (String × Json)) → ∀ t ∈ compactMembers members, Balanced .outside t.toList
  | [] => by simp [compactMembers]
  | (k, x) :: xs => by
    simp only [compactMembers, List.mem_cons, forall_eq_or_imp]
    refine ⟨?_, balanced_compactMembers xs⟩
    rw [String.toList_append, String.toList_append]
    exact ((balanced_quote k).append (PlainText.balanced (by decide))).append (balanced_compact x)

end

theorem block_compact_obj (members : List (String × Json)) :
    Block (compact (.obj members)).toList := by
  rw [compact, String.toList_append, String.toList_append]
  exact ⟨_, balanced_intercalate (balanced_compactMembers members), rfl⟩

variable {s t : String} {a b : List (String × Json)}

/-- Where the text of an object at the end begins is never in doubt. -/
theorem append_compact_obj_inj (h : s ++ (obj a).compact = t ++ (obj b).compact) :
    s = t ∧ (obj a).compact = (obj b).compact := by
  have hlist := congrArg String.toList h
  rw [String.toList_append, String.toList_append] at hlist
  obtain ⟨hs, hc⟩ := (block_compact_obj a).append_left_inj (block_compact_obj b) hlist
  exact ⟨String.toList_inj.1 hs, String.toList_inj.1 hc⟩

/-- Where the text of an object at the start ends is never in doubt. -/
theorem compact_obj_append_inj (h : (obj a).compact ++ s = (obj b).compact ++ t) :
    (obj a).compact = (obj b).compact ∧ s = t := by
  have hlist := congrArg String.toList h
  rw [String.toList_append, String.toList_append] at hlist
  obtain ⟨hc, hs⟩ := (block_compact_obj a).append_right_inj (block_compact_obj b) hlist
  exact ⟨String.toList_inj.1 hc, String.toList_inj.1 hs⟩

end Json

end Pipework
