import Mathlib.Data.List.Infix
import Pipework.Text.Blank

/-!
# Pieces of texts

A piece of a text is replaced wherever it stands, from the left and without overlaps. A text that
starts with the piece goes on behind it (`replaced_append`), and of any other text the first
character stays (`replaced_cons`).
-/

namespace Pipework.Text

variable {piece replacement cs ds : List Char} {c : Char} {n m : Nat}

/-! ## Pieces within a list -/

section

variable {α : Type} {xs front between back : List α} {mark : α}

/-- What has not the mark stands before it or behind it. -/
theorem infix_append_cons_iff (h : mark ∉ xs) :
    xs <:+: front ++ mark :: back ↔ xs <:+: front ∨ xs <:+: back := by
  constructor
  · rintro ⟨s, t, hst⟩
    rcases List.append_eq_append_iff.1 hst with ⟨w, hw, -⟩ | ⟨w, hw, hback⟩
    · exact .inl ⟨s, w, hw.symm⟩
    · -- The mark comes before the end of the piece, so it comes before its start as well.
      rcases List.append_eq_append_iff.1 hw with ⟨u, -, hu⟩ | ⟨u, hu, huw⟩
      · cases w with
        | nil => exact .inl ⟨s, [], by simpa using hw⟩
        | cons m w =>
          have hm : mark = m := (List.cons.inj hback).1
          exact absurd (by simp [hu, hm]) h
      · cases u with
        | nil =>
          rw [List.nil_append] at huw
          subst huw
          cases w with
          | nil => exact .inl ⟨front, [], by simp⟩
          | cons m w => exact absurd (by simp [(List.cons.inj hback).1]) h
        | cons m u =>
          rw [huw, List.cons_append, List.cons_append] at hback
          exact .inr ⟨u, t, (List.cons.inj hback).2.symm⟩
  · rintro (h | h)
    · exact h.trans (List.prefix_append _ _).isInfix
    · exact h.trans ((List.suffix_cons _ _).trans (List.suffix_append _ _)).isInfix

/-- What has nothing of a list that stands between two others stands in one of these. -/
theorem infix_append_of_disjoint (hne : between ≠ []) (hd : ∀ d ∈ between, d ∉ xs)
    (h : xs <:+: front ++ (between ++ back)) : xs <:+: front ∨ xs <:+: back := by
  induction between generalizing front with
  | nil => exact absurd rfl hne
  | cons d between ih =>
    rw [List.forall_mem_cons] at hd
    rw [List.cons_append, infix_append_cons_iff hd.1] at h
    rcases h with h | h
    · exact .inl h
    · cases between with
      | nil => exact .inr h
      | cons d between =>
        have hback : xs <:+: [] ++ (d :: between ++ back) := h
        rcases ih (List.cons_ne_nil _ _) hd.2 hback with h | h
        · rw [List.infix_nil.1 h]
          exact .inl List.nil_infix
        · exact .inr h

theorem exists_mem_of_mem_intercalate {x : α} {separator : List α} {pieces : List (List α)}
    (h : x ∈ separator.intercalate pieces) : x ∈ separator ∨ ∃ p ∈ pieces, x ∈ p := by
  induction pieces with
  | nil => exact absurd h List.not_mem_nil
  | cons p pieces ih =>
    cases pieces with
    | nil => exact .inr ⟨p, List.mem_cons_self, by simpa using h⟩
    | cons q pieces =>
      rw [List.intercalate_cons_cons, List.append_assoc, List.mem_append, List.mem_append] at h
      rcases h with h | h | h
      · exact .inr ⟨p, List.mem_cons_self, h⟩
      · exact .inl h
      · exact (ih h).imp_right fun ⟨r, hr, hx⟩ => ⟨r, List.mem_cons_of_mem _ hr, hx⟩

end

theorem containsChars_iff : containsChars piece cs = true ↔ piece <:+: cs := by
  induction cs with
  | nil => simp [containsChars]
  | cons c cs ih => simp [containsChars, ih, List.infix_cons_iff]

/-! ## Replacing -/

/-- A piece that is not empty takes up part of the text, so one step for each character is
enough. -/
theorem replaceChars_of_length_le (hpiece : piece ≠ []) (hn : cs.length ≤ n)
    (hm : cs.length ≤ m) :
    replaceChars piece replacement n cs = replaceChars piece replacement m cs := by
  induction n generalizing m cs with
  | zero =>
    have hcs : cs = [] := List.length_eq_zero_iff.1 (Nat.le_zero.1 hn)
    subst hcs
    cases m <;> rfl
  | succ n ih =>
    cases cs with
    | nil => cases m <;> rfl
    | cons c cs =>
      have hpos : 0 < piece.length := List.length_pos_iff.2 hpiece
      obtain ⟨m, rfl⟩ : ∃ k, m = k + 1 := Nat.exists_eq_add_one.2 (by simp at hm; omega)
      rw [List.length_cons] at hn hm
      rw [replaceChars, replaceChars]
      split
      · rw [ih (m := m) (by simp; omega) (by simp; omega)]
      · rw [ih (m := m) (by omega) (by omega)]

/-- The text with a piece replaced wherever it stands. -/
def replaced (piece replacement cs : List Char) : List Char :=
  replaceChars piece replacement cs.length cs

theorem toList_replace (piece replacement s : String) :
    (replace piece replacement s).toList = replaced piece.toList replacement.toList s.toList := by
  rw [replace, String.toList_ofList, replaced, String.length_toList]

@[simp] theorem replaced_nil : replaced piece replacement [] = [] := rfl

theorem replaced_append (hpiece : piece ≠ []) :
    replaced piece replacement (piece ++ cs) = replacement ++ replaced piece replacement cs := by
  obtain ⟨first, rest, rfl⟩ := List.exists_cons_of_ne_nil hpiece
  have hprefix : (first :: rest).isPrefixOf (first :: (rest ++ cs)) = true := by simp
  rw [replaced, List.cons_append, List.length_cons, replaceChars, if_pos hprefix,
    ← List.cons_append, List.drop_left]
  rw [replaceChars_of_length_le hpiece (by simp) (Nat.le_refl _)]
  rfl

theorem replaced_cons (h : ¬ piece <+: c :: cs) :
    replaced piece replacement (c :: cs) = c :: replaced piece replacement cs := by
  rw [replaced, List.length_cons, replaceChars, if_neg (mt List.isPrefixOf_iff_prefix.1 h)]
  rfl

/-- A piece does not start where its first character does not stand. -/
theorem replaced_append_of_notMem {first : Char} {rest : List Char} (h : first ∉ cs) :
    replaced (first :: rest) replacement (cs ++ ds)
      = cs ++ replaced (first :: rest) replacement ds := by
  induction cs with
  | nil => rfl
  | cons c cs ih =>
    rw [List.mem_cons, not_or] at h
    have hprefix : ¬ first :: rest <+: c :: (cs ++ ds) := by
      intro hstart
      exact h.1 (List.cons_prefix_cons.1 hstart).1
    rw [List.cons_append, replaced_cons hprefix, ih h.2, List.cons_append]

/-- To replace what stands between texts puts something else between them. -/
theorem replaced_intercalate {first : Char} {rest : List Char} {pieces : List (List Char)}
    (h : ∀ p ∈ pieces, first ∉ p) :
    replaced (first :: rest) replacement ((first :: rest).intercalate pieces)
      = replacement.intercalate pieces := by
  induction pieces with
  | nil => rfl
  | cons p pieces ih =>
    rw [List.forall_mem_cons] at h
    cases pieces with
    | nil =>
      rw [List.intercalate_singleton, List.intercalate_singleton]
      rw [← List.append_nil p, replaced_append_of_notMem h.1, replaced_nil]
    | cons q pieces =>
      rw [List.intercalate_cons_cons, List.intercalate_cons_cons, List.append_assoc,
        replaced_append_of_notMem h.1, replaced_append (List.cons_ne_nil _ _), ih h.2,
        List.append_assoc]

end Pipework.Text
