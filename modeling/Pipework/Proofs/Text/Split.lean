import Pipework.Text.Blank

/-!
# Texts taken apart

A text is split at a separator as lists are, so its pieces are exactly the texts without the
separator that make up the text when they are put together again.
-/

namespace Pipework.Text

variable {separator : Char} {cs : List Char} {pieces : List (List Char)}

theorem splitAt_ne_nil : splitAt separator cs ≠ [] := by
  fun_induction splitAt separator cs <;> simp

theorem splitAt_eq_splitOn : splitAt separator cs = cs.splitOn separator := by
  induction cs with
  | nil => rfl
  | cons c cs ih =>
    have hne : splitAt separator cs ≠ [] := splitAt_ne_nil
    obtain ⟨piece, pieces, hpieces⟩ := List.exists_cons_of_ne_nil hne
    rw [List.splitOn] at ih ⊢
    rw [splitAt, List.splitOnP_cons_eq_if_modifyHead, ← ih, hpieces]
    by_cases hc : c = separator <;> simp [hc]

theorem intercalate_splitAt : [separator].intercalate (splitAt separator cs) = cs := by
  rw [splitAt_eq_splitOn, List.intercalate_splitOn]

theorem notMem_of_mem_splitAt {piece : List Char} (h : piece ∈ splitAt separator cs) :
    separator ∉ piece := by
  fun_induction splitAt separator cs generalizing piece with
  | case1 => simp_all
  | case2 cs ih =>
    rcases List.mem_cons.1 h with rfl | h
    · exact List.not_mem_nil
    · exact ih h
  | case3 c cs hc hnil => exact absurd hnil splitAt_ne_nil
  | case4 c cs hc first rest hpieces ih =>
    rcases List.mem_cons.1 h with rfl | h
    · have hfirst := ih (hpieces ▸ List.mem_cons_self)
      simp [hfirst, Ne.symm hc]
    · exact ih (hpieces ▸ List.mem_cons_of_mem _ h)

theorem splitAt_append_cons {ds : List Char} :
    splitAt separator (cs ++ separator :: ds) = splitAt separator cs ++ splitAt separator ds := by
  induction cs with
  | nil => simp [splitAt]
  | cons c cs ih =>
    have hne : splitAt separator cs ≠ [] := splitAt_ne_nil
    obtain ⟨piece, pieces, hpieces⟩ := List.exists_cons_of_ne_nil hne
    rw [List.cons_append, splitAt, splitAt, ih, hpieces]
    by_cases hc : c = separator <;> simp [hc]

/-- The pieces of a text are known by what they make together. -/
theorem splitAt_eq_iff : splitAt separator cs = pieces ↔
    pieces ≠ [] ∧ (∀ piece ∈ pieces, separator ∉ piece)
    ∧ [separator].intercalate pieces = cs := by
  constructor
  · rintro rfl
    exact ⟨splitAt_ne_nil, fun _ => notMem_of_mem_splitAt, intercalate_splitAt⟩
  · rintro ⟨hne, hpieces, rfl⟩
    rw [splitAt_eq_splitOn, List.splitOn_intercalate _ hpieces hne]

end Pipework.Text
