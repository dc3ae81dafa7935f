import Mathlib.Data.List.Nodup
import Pipework.Dict

/-!
# Keys of dictionaries

Which keys a dictionary has after each operation.
-/

namespace Pipework

namespace Dict

variable {α β : Type} {d : Dict α} {k m : String} {x : α}

theorem mem_keys_iff : k ∈ d.keys ↔ ∃ x, d.get? k = some x := by
  simp [keys, ← mem_entries_iff]

theorem nodup_keys (d : Dict α) : d.keys.Nodup := by
  refine List.pairwise_map.2 (d.ascending.imp fun {a b} hlt heq => ?_)
  rw [heq] at hlt
  exact String.lt_irrefl _ hlt

theorem contains_iff : d.contains k = true ↔ k ∈ d.keys := by
  rw [contains, Option.isSome_iff_exists, mem_keys_iff]

theorem pairwise_keys (d : Dict α) : d.keys.Pairwise (· < ·) := List.pairwise_map.2 d.ascending

/-- Keys ascend, so it is enough to know which there are. -/
theorem keys_eq_iff {e : Dict β} : d.keys = e.keys ↔ ∀ k, k ∈ d.keys ↔ k ∈ e.keys := by
  refine ⟨fun h k => by rw [h], fun h => ?_⟩
  have hperm : d.keys.Perm e.keys :=
    (List.perm_ext_iff_of_nodup d.nodup_keys e.nodup_keys).2 h
  exact hperm.eq_of_pairwise (fun _ _ _ _ hlt hgt => absurd hgt (String.lt_asymm hlt))
    d.pairwise_keys e.pairwise_keys

@[simp] theorem mem_keys_insert : m ∈ (d.insert k x).keys ↔ m = k ∨ m ∈ d.keys := by
  simp only [mem_keys_iff, get?_insert]
  by_cases h : k = m
  · simp [h]
  · simp [h, Ne.symm h]

@[simp] theorem mem_keys_insertMany {l : List (String × α)} :
    m ∈ (d.insertMany l).keys ↔ m ∈ d.keys ∨ m ∈ l.map (·.1) := by
  induction l generalizing d with
  | nil => simp [insertMany]
  | cons e l ih =>
    have hcons : d.insertMany (e :: l) = (d.insert e.1 e.2).insertMany l := rfl
    rw [hcons, ih, mem_keys_insert, List.map_cons, List.mem_cons, or_assoc, or_left_comm]

@[simp] theorem mem_keys_ofList {l : List (String × α)} :
    m ∈ (ofList l).keys ↔ m ∈ l.map (·.1) := by
  have hempty : m ∉ (empty : Dict α).keys := List.not_mem_nil
  rw [ofList, mem_keys_insertMany, or_iff_right hempty]

/-- What is found after many insertions was there before or is one of them. -/
theorem mem_of_get?_insertMany {l : List (String × α)} (h : (d.insertMany l).get? k = some x) :
    d.get? k = some x ∨ (k, x) ∈ l := by
  induction l generalizing d with
  | nil => exact .inl h
  | cons e l ih =>
    rcases ih (d := d.insert e.1 e.2) h with h | h
    · rw [get?_insert] at h
      split at h
      · rename_i hk
        cases h
        exact .inr (List.mem_cons.2 (.inl (by rw [← hk])))
      · exact .inl h
    · exact .inr (List.mem_cons_of_mem _ h)

/-- Of pairs with different keys a dictionary has all. -/
theorem get?_ofList_eq_some_iff {l : List (String × α)} (h : (l.map (·.1)).Nodup) :
    (ofList l).get? k = some x ↔ (k, x) ∈ l := by
  have hmem : ∀ {y}, (ofList l).get? k = some y → (k, y) ∈ l := fun hy =>
    (mem_of_get?_insertMany hy).resolve_left nofun
  refine ⟨hmem, fun hx => ?_⟩
  have hkey : k ∈ (ofList l).keys := mem_keys_ofList.2 (List.mem_map.2 ⟨_, hx, rfl⟩)
  obtain ⟨y, hy⟩ := mem_keys_iff.1 hkey
  cases List.inj_on_of_nodup_map h hx (hmem hy) rfl
  exact hy

/-- Their order does not matter. -/
theorem ofList_of_perm {l m : List (String × α)} (h : l.Perm m) (hl : (l.map (·.1)).Nodup) :
    ofList l = ofList m := by
  refine ext_get? fun k => Option.ext fun x => ?_
  rw [get?_ofList_eq_some_iff hl, get?_ofList_eq_some_iff ((h.map _).nodup_iff.1 hl), h.mem_iff]

@[simp] theorem ofList_entries (d : Dict α) : ofList d.entries = d := by
  refine ext_get? fun k => Option.ext fun x => ?_
  rw [get?_ofList_eq_some_iff d.nodup_keys, mem_entries_iff]

/-- What is inserted hides what was there. -/
theorem get?_insertMany {l : List (String × α)} :
    (d.insertMany l).get? k = ((ofList l).get? k).or (d.get? k) := by
  induction l generalizing d with
  | nil => rfl
  | cons e l ih =>
    have hcons (d : Dict α) : d.insertMany (e :: l) = (d.insert e.1 e.2).insertMany l := rfl
    rw [ofList, hcons, hcons, ih, @ih (empty.insert e.1 e.2), Option.or_assoc, get?_insert,
      get?_insert]
    split <;> rfl

theorem get?_ofList_append {a b : List (String × α)} :
    (ofList (a ++ b)).get? k = ((ofList b).get? k).or ((ofList a).get? k) := by
  have happend : ofList (a ++ b) = (ofList a).insertMany b := List.foldl_append ..
  rw [happend, get?_insertMany]

theorem get?_filter {p : String → α → Bool} : (d.filter p).get? k = (d.get? k).filter (p k) := by
  refine Option.ext fun x => ?_
  rw [← mem_entries_iff, filter, List.mem_filter, mem_entries_iff, Option.filter_eq_some_iff]

/-- The entries under all names but some. -/
def without (d : Dict α) (names : List String) : Dict α := d.filter fun k _ => !names.contains k

theorem get?_without {names : List String} :
    (d.without names).get? k = if k ∈ names then none else d.get? k := by
  rw [without, get?_filter]
  by_cases hk : k ∈ names <;> cases d.get? k <;> simp [hk]

@[simp] theorem without_nil : d.without [] = d := ext_get? fun k => by simp [get?_without]

theorem without_append {names names' : List String} :
    d.without (names ++ names') = (d.without names).without names' := by
  refine ext_get? fun k => ?_
  simp only [get?_without, List.mem_append]
  grind

theorem get?_mapWithKey_eq_some_iff {f : String → α → β} {y : β} :
    (d.mapWithKey f).get? k = some y ↔ ∃ x, d.get? k = some x ∧ f k x = y := by
  simp only [← mem_entries_iff, mapWithKey, List.mem_map, Prod.mk.injEq]
  constructor
  · rintro ⟨⟨_, x⟩, hmem, rfl, rfl⟩
    exact ⟨x, hmem, rfl⟩
  · rintro ⟨x, hmem, rfl⟩
    exact ⟨(k, x), hmem, rfl, rfl⟩

theorem get?_map (f : α → β) (d : Dict α) (k : String) : (d.map f).get? k = (d.get? k).map f :=
  Option.ext fun y => by rw [map, get?_mapWithKey_eq_some_iff, Option.map_eq_some_iff]

@[simp] theorem keys_mapWithKey (f : String → α → β) (d : Dict α) :
    (d.mapWithKey f).keys = d.keys := by
  simp [keys, mapWithKey]

@[simp] theorem keys_map (f : α → β) (d : Dict α) : (d.map f).keys = d.keys := keys_mapWithKey _ d

@[simp] theorem values_map (f : α → β) (d : Dict α) : (d.map f).values = d.values.map f := by
  simp [values, map, mapWithKey]

@[simp] theorem contains_map (f : α → β) (d : Dict α) (k : String) :
    (d.map f).contains k = d.contains k := by
  rw [contains, get?_map, Option.isSome_map, contains]

@[simp] theorem map_map {γ : Type} (f : α → β) (g : β → γ) (d : Dict α) :
    (d.map f).map g = d.map (g ∘ f) :=
  ext_get? fun k => by simp only [get?_map, Option.map_map]

@[simp] theorem map_id (d : Dict α) : d.map id = d :=
  ext_get? fun k => by rw [get?_map, Option.map_id, id]

theorem map_eq_self_iff {f : α → α} : d.map f = d ↔ ∀ x ∈ d.values, f x = x := by
  rw [values, List.forall_mem_map]
  constructor
  · intro h e he
    obtain ⟨k, x⟩ := e
    have hget := congrArg (·.get? k) h
    rwa [get?_map, mem_entries_iff.1 he, Option.map_some, Option.some.injEq] at hget
  · intro h
    have hentries : d.entries.map (fun e => (e.1, f e.2)) = d.entries.map id :=
      List.map_congr_left fun e he => Prod.ext rfl (h e he)
    exact ext_entries (hentries.trans (List.map_id _))

theorem map_insert (f : α → β) (d : Dict α) (k : String) (x : α) :
    (d.insert k x).map f = (d.map f).insert k (f x) := by
  refine ext_get? fun m => ?_
  simp only [get?_map, get?_insert]
  split <;> rfl

theorem map_insertMany (f : α → β) (d : Dict α) (l : List (String × α)) :
    (d.insertMany l).map f = (d.map f).insertMany (l.map fun e => (e.1, f e.2)) := by
  induction l generalizing d with
  | nil => rfl
  | cons e l ih =>
    have hrest := ih (d.insert e.1 e.2)
    rwa [map_insert] at hrest

@[simp] theorem map_ofList (f : α → β) (l : List (String × α)) :
    (ofList l).map f = ofList (l.map fun e => (e.1, f e.2)) := map_insertMany f empty l

end Dict

namespace NameSet

variable {names : List String} {k : String}

@[simp] theorem mem_keys_ofList : k ∈ (ofList names).keys ↔ k ∈ names := by
  simp [ofList]

@[simp] theorem mem_keys_addAll {s : NameSet} :
    k ∈ (s.addAll names).keys ↔ k ∈ s.keys ∨ k ∈ names := by
  simp [addAll]

end NameSet

end Pipework
