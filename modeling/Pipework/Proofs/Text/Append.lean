/-!
# Texts put together

A text put together from parts can be taken apart again where the lengths of the parts are known, or
where a mark stands that comes up in no later part.
-/

namespace Pipework.Text

variable {s t u v : String}

theorem append_inj_of_length_left (h : s ++ u = t ++ v) (hl : s.length = t.length) :
    s = t ∧ u = v := by
  have hlist := congrArg String.toList h
  rw [String.toList_append, String.toList_append] at hlist
  obtain ⟨hs, hu⟩ := List.append_inj hlist (by rwa [String.length_toList, String.length_toList])
  exact ⟨String.toList_inj.1 hs, String.toList_inj.1 hu⟩

theorem append_inj_of_length_right (h : s ++ u = t ++ v) (hl : u.length = v.length) :
    s = t ∧ u = v := by
  have hlength := congrArg String.length h
  rw [String.length_append, String.length_append] at hlength
  exact append_inj_of_length_left h (by omega)

/-- The last mark of a list cuts it in two. -/
theorem cons_inj_of_notMem {mark : Char} {cs ds us vs : List Char} (hu : mark ∉ us)
    (hv : mark ∉ vs) (h : cs ++ mark :: us = ds ++ mark :: vs) : cs = ds ∧ us = vs := by
  rcases List.append_eq_append_iff.1 h with ⟨w, hw, huw⟩ | ⟨w, hw, hvw⟩
  · cases w with
    | nil => exact ⟨by rw [hw, List.append_nil], (List.cons.inj huw).2⟩
    | cons c w => exact absurd (by simp [(List.cons.inj huw).2]) hu
  · cases w with
    | nil => exact ⟨by rw [hw, List.append_nil], (List.cons.inj hvw).2.symm⟩
    | cons c w => exact absurd (by simp [(List.cons.inj hvw).2]) hv

/-- The first mark of a list cuts it in two. -/
theorem cons_inj_of_notMem_left {mark : Char} {cs ds us vs : List Char} (hc : mark ∉ cs)
    (hd : mark ∉ ds) (h : cs ++ mark :: us = ds ++ mark :: vs) : cs = ds ∧ us = vs := by
  have hreverse : us.reverse ++ mark :: cs.reverse = vs.reverse ++ mark :: ds.reverse := by
    simpa using congrArg List.reverse h
  obtain ⟨hus, hcs⟩ := cons_inj_of_notMem (by simpa using hc) (by simpa using hd) hreverse
  exact ⟨List.reverse_inj.1 hcs, List.reverse_inj.1 hus⟩

/-- A text that ends in a mark, before a text without it. -/
theorem append_inj_of_notMem {mark : Char} {cs ds : List Char} (hs : s.toList = cs ++ [mark])
    (ht : t.toList = ds ++ [mark]) (hu : mark ∉ u.toList) (hv : mark ∉ v.toList)
    (h : s ++ u = t ++ v) : s = t ∧ u = v := by
  have hlist := congrArg String.toList h
  rw [String.toList_append, String.toList_append, hs, ht, List.append_assoc, List.append_assoc]
    at hlist
  obtain ⟨hcs, huv⟩ := cons_inj_of_notMem hu hv hlist
  exact ⟨String.toList_inj.1 (by rw [hs, ht, hcs]), String.toList_inj.1 huv⟩

/-- Lists whose elements can be read off one after the other, as long as their sizes are known. -/
theorem join_map_append_inj {α σ : Type} {f : α → String} {size : α → σ} {P : α → Prop}
    (hf : ∀ {a b : α} {s t : String}, P a → P b → size a = size b → f a ++ s = f b ++ t →
      a = b ∧ s = t)
    {xs ys : List α} (hx : ∀ a ∈ xs, P a) (hy : ∀ b ∈ ys, P b) (hl : xs.map size = ys.map size)
    (h : String.join (xs.map f) ++ u = String.join (ys.map f) ++ v) : xs = ys ∧ u = v := by
  induction xs generalizing ys with
  | nil =>
    cases ys with
    | nil => simpa using h
    | cons y ys => cases hl
  | cons x xs ih =>
    cases ys with
    | nil => cases hl
    | cons y ys =>
      obtain ⟨hsize, hsizes⟩ := List.cons.inj hl
      simp only [List.map_cons, String.join_cons, String.append_assoc] at h
      obtain ⟨rfl, hrest⟩ := hf (hx x List.mem_cons_self) (hy y List.mem_cons_self) hsize h
      obtain ⟨rfl, huv⟩ := ih (fun a ha => hx a (List.mem_cons_of_mem _ ha))
        (fun b hb => hy b (List.mem_cons_of_mem _ hb)) hsizes hrest
      exact ⟨rfl, huv⟩

/-- Lists of texts that all have the same length. -/
theorem join_inj {xs ys : List String} {n : Nat} (hn : 0 < n) (hx : ∀ x ∈ xs, x.length = n)
    (hy : ∀ y ∈ ys, y.length = n) (h : String.join xs = String.join ys) : xs = ys := by
  have hxs := List.eq_replicate_iff.2 ⟨rfl, List.forall_mem_map.2 hx⟩
  have hys := List.eq_replicate_iff.2 ⟨rfl, List.forall_mem_map.2 hy⟩
  have hlength := congrArg String.length h
  rw [String.length_join, String.length_join, hxs, hys, List.sum_replicate_nat,
    List.sum_replicate_nat, List.length_map, List.length_map] at hlength
  have hcount : xs.length = ys.length := Nat.eq_of_mul_eq_mul_right hn hlength
  have hl : xs.map String.length = ys.map String.length := by
    rw [hxs, hys, List.length_map, List.length_map, hcount]
  refine (join_map_append_inj (f := id) (P := fun _ => True) (u := "") (v := "")
    (fun _ _ hlength h => append_inj_of_length_left h hlength) (fun _ _ => trivial)
    (fun _ _ => trivial) hl ?_).1
  rw [List.map_id, List.map_id, h]

end Pipework.Text
