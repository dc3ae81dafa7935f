import Mathlib.Data.Option.Basic
import Pipework.Proofs.Dict.Keys
import Pipework.Proofs.Traversal
import Pipework.Step.Signature

/-!
# Filling dictionaries

Values are checked against the names that are declared, filled in from defaults, or computed name by
name. Each of these comes to an end only if it has found something for every name that is declared.
-/

namespace Pipework

namespace Entries

variable {α : Type} {k : String} {x : α} {e : String × α} {l : List (String × α)}

theorem find?_cons : find? k (e :: l) = if e.1 = k then some e.2 else find? k l := rfl

/-- Keys ascend, so the first one does not come again. -/
theorem find?_eq_none_of_ascending_cons (h : Ascending (e :: l)) : find? e.1 l = none :=
  find?_eq_none_of_lt (List.pairwise_cons.1 h).1

end Entries

namespace Dict

variable {α β ε : Type} {k : String}

theorem firstUnknown?_eq_none_iff {given : Dict α} {known : Dict β} :
    given.firstUnknown? known = none ↔ ∀ k ∈ given.keys, k ∈ known.keys := by
  simp [firstUnknown?, contains_iff]

/-- Each entry of a list has changed the value under its key, and nothing else has changed. -/
theorem get?_foldl_alter (f : α → Option β → β) {l : List (String × α)} (hl : Ascending l)
    (d : Dict β) :
    (l.foldl (fun d (entry : String × α) => d.alter entry.1 (f entry.2)) d).get? k
      = ((Entries.find? k l).map fun x => f x (d.get? k)).or (d.get? k) := by
  induction l generalizing d with
  | nil => rfl
  | cons entry l ih =>
    have hrest := ih (List.pairwise_cons.1 hl).2 (d.alter entry.1 (f entry.2))
    by_cases hk : entry.1 = k
    · subst hk
      simpa [Entries.find?_cons, get?_alter, Entries.find?_eq_none_of_ascending_cons hl]
        using hrest
    · simpa [Entries.find?_cons, get?_alter, hk] using hrest

/-- A dictionary that is computed name by name holds for each name what was computed for it. -/
theorem get?_foldlM_insert {f : String → α → Except ε β} {l : List (String × α)} {d e : Dict β}
    (hl : Ascending l)
    (h : l.foldlM (fun done (entry : String × α) =>
      (f entry.1 entry.2).map (done.insert entry.1)) d = .ok e) :
    match Entries.find? k l with
    | some x => ∃ y, e.get? k = some y ∧ f k x = .ok y
    | none => e.get? k = d.get? k := by
  induction l generalizing d with
  | nil =>
    cases h
    rfl
  | cons entry l ih =>
    rw [List.foldlM_cons, bind_eq_ok_iff] at h
    obtain ⟨d', hentry, hrest⟩ := h
    obtain ⟨y, hy, rfl⟩ : ∃ y, f entry.1 entry.2 = .ok y ∧ d.insert entry.1 y = d' := by
      cases hf : f entry.1 entry.2 with
      | error cause => rw [hf] at hentry; cases hentry
      | ok y => rw [hf] at hentry; exact ⟨y, rfl, Except.ok.inj hentry⟩
    have hget := ih (List.pairwise_cons.1 hl).2 hrest
    rw [Entries.find?_cons]
    by_cases hk : entry.1 = k
    · subst hk
      rw [Entries.find?_eq_none_of_ascending_cons hl] at hget
      rw [if_pos rfl]
      refine ⟨y, ?_, hy⟩
      rw [hget, get?_insert, if_pos rfl]
    · rw [if_neg hk]
      cases hfind : Entries.find? k l with
      | some x => rwa [hfind] at hget
      | none =>
        rw [hfind] at hget
        rwa [get?_insert, if_neg hk] at hget

theorem get?_traverse {f : String → α → Except ε β} {d : Dict α} {e : Dict β}
    (h : d.traverse f = .ok e) :
    Option.Rel (fun x y => f k x = .ok y) (d.get? k) (e.get? k) := by
  have hget := get?_foldlM_insert (k := k) d.ascending h
  rw [get?]
  cases hfind : Entries.find? k d.entries with
  | some x =>
    rw [hfind] at hget
    obtain ⟨y, hy, hf⟩ := hget
    rw [hy]
    exact .some hf
  | none =>
    rw [hfind] at hget
    rw [hget]
    exact .none

/-- A dictionary can be computed if and only if something can be computed for each of its names. -/
theorem exists_traverse_iff {f : String → α → Except ε β} {d : Dict α} :
    (∃ e, d.traverse f = .ok e) ↔ ∀ k x, d.get? k = some x → ∃ y, f k x = .ok y := by
  constructor
  · rintro ⟨e, h⟩ k x hk
    have hrel := get?_traverse (k := k) h
    rw [hk] at hrel
    generalize e.get? k = after at hrel
    cases hrel with
    | some hy => exact ⟨_, hy⟩
  · intro h
    have hentries : ∀ entry ∈ d.entries, ∃ y, f entry.1 entry.2 = .ok y :=
      fun entry hentry => h entry.1 entry.2 (mem_entries_iff.1 hentry)
    rw [traverse]
    generalize d.entries = l at hentries
    generalize (empty : Dict β) = done
    induction l generalizing done with
    | nil => exact ⟨done, rfl⟩
    | cons entry l ih =>
      rw [List.forall_mem_cons] at hentries
      obtain ⟨⟨y, hy⟩, hrest⟩ := hentries
      obtain ⟨e, he⟩ := ih hrest (done.insert entry.1 y)
      refine ⟨e, ?_⟩
      rw [List.foldlM_cons, bind_eq_ok_iff]
      exact ⟨_, map_eq_ok_iff.2 ⟨y, hy, rfl⟩, he⟩

/-- What is computed from a value and still shows it. -/
theorem map_traverse {f : String → α → Except ε β} {g : β → α} {d : Dict α} {e : Dict β}
    (h : d.traverse f = .ok e) (hg : ∀ k x y, f k x = .ok y → g y = x) : e.map g = d := by
  refine ext_get? fun k => ?_
  have hrel := get?_traverse (k := k) h
  rw [get?_map]
  generalize d.get? k = before at hrel
  generalize e.get? k = after at hrel
  cases hrel with
  | none => rfl
  | some hf => exact congrArg some (hg k _ _ hf)

/-- One step of `withDefaults`: a name that has no value gets its default. -/
def fill (values : Dict Json) (name : String) (default : Option Json) : Except String (Dict Json) :=
  if values.contains name then .ok values
  else match default with
    | some value => .ok (values.insert name value)
    | none => .error name

theorem mem_keys_fill {values filled : Dict Json} {name : String} {default : Option Json}
    (h : values.fill name default = .ok filled) : k ∈ filled.keys ↔ k = name ∨ k ∈ values.keys := by
  unfold fill at h
  split at h
  · rename_i hcontains
    cases h
    constructor
    · exact .inr
    · rintro (rfl | hk)
      · exact contains_iff.1 hcontains
      · exact hk
  · cases default with
    | none => cases h
    | some value =>
      cases h
      exact mem_keys_insert

/-- The names that have a value in the end are those that had one and those that are declared. -/
theorem mem_keys_withDefaults {values filled : Dict Json} {parameters : Dict (Option Json)}
    (h : values.withDefaults parameters = .ok filled) :
    k ∈ filled.keys ↔ k ∈ values.keys ∨ k ∈ parameters.keys := by
  change parameters.entries.foldlM (fun filled entry => filled.fill entry.1 entry.2) values
    = .ok filled at h
  rw [keys, keys, keys]
  generalize parameters.entries = l at h
  induction l generalizing values with
  | nil =>
    cases h
    simp
  | cons entry l ih =>
    rw [List.foldlM_cons, bind_eq_ok_iff] at h
    obtain ⟨values', hentry, hrest⟩ := h
    have hfill := mem_keys_fill (k := k) hentry
    rw [keys, keys] at hfill
    rw [ih hrest, hfill, List.map_cons, List.mem_cons, or_assoc, or_left_comm]

theorem get?_fill {values filled : Dict Json} {name : String} {default : Option Json}
    (h : values.fill name default = .ok filled) :
    filled.get? k = (values.get? k).or (if name = k then default else none) := by
  unfold fill at h
  split at h
  · rename_i hcontains
    cases h
    obtain ⟨value, hvalue⟩ := Option.isSome_iff_exists.1 hcontains
    by_cases hk : name = k
    · subst hk
      rw [hvalue]
      rfl
    · rw [if_neg hk, Option.or_none]
  · rename_i hcontains
    have hnone : values.get? name = none := by simpa [contains] using hcontains
    cases default with
    | none => cases h
    | some value =>
      cases h
      rw [get?_insert]
      by_cases hk : name = k
      · subst hk
        rw [if_pos rfl, if_pos rfl, hnone]
        rfl
      · rw [if_neg hk, if_neg hk, Option.or_none]

/-- Each name has its value in the end, or its default if it had none. -/
theorem get?_withDefaults {values filled : Dict Json} {parameters : Dict (Option Json)}
    (h : values.withDefaults parameters = .ok filled) :
    filled.get? k = (values.get? k).or (parameters.get? k).join := by
  have hascending := parameters.ascending
  change parameters.entries.foldlM (fun filled entry => filled.fill entry.1 entry.2) values
    = .ok filled at h
  change _ = (values.get? k).or (Entries.find? k parameters.entries).join
  generalize parameters.entries = l at h hascending
  induction l generalizing values with
  | nil =>
    cases h
    simp [Entries.find?]
  | cons entry l ih =>
    rw [List.foldlM_cons, bind_eq_ok_iff] at h
    obtain ⟨values', hentry, hrest⟩ := h
    have hnotin := Entries.find?_eq_none_of_ascending_cons hascending
    rw [ih hrest (List.pairwise_cons.1 hascending).2, get?_fill hentry, Option.or_assoc,
      Entries.find?_cons]
    by_cases hk : entry.1 = k
    · subst hk
      simp [hnotin]
    · simp [hk]

/-- A name can be filled in unless it has neither a value nor a default. -/
theorem exists_fill_iff {values : Dict Json} {name : String} {default : Option Json} :
    (∃ filled, values.fill name default = .ok filled)
      ↔ (default = none → name ∈ values.keys) := by
  rw [← contains_iff]
  cases hcontains : values.contains name with
  | true => simp [fill, hcontains]
  | false => cases default <;> simp [fill, hcontains]

/-- All names can be filled in if and only if each name without a default has a value. -/
theorem exists_withDefaults_iff {values : Dict Json} {parameters : Dict (Option Json)} :
    (∃ filled, values.withDefaults parameters = .ok filled)
      ↔ ∀ name, parameters.get? name = some none → name ∈ values.keys := by
  have hascending := parameters.ascending
  change (∃ filled, parameters.entries.foldlM (fun filled entry => filled.fill entry.1 entry.2)
    values = .ok filled) ↔ ∀ name, Entries.find? name parameters.entries = some none → _
  generalize parameters.entries = l at hascending
  induction l generalizing values with
  | nil => simp [Entries.find?, pure, Except.pure]
  | cons entry l ih =>
    have hrest {values : Dict Json} := @ih values (List.pairwise_cons.1 hascending).2
    have hnotin := Entries.find?_eq_none_of_ascending_cons hascending
    simp only [List.foldlM_cons, bind_eq_ok_iff, Entries.find?_cons]
    constructor
    · rintro ⟨filled, values', hfill, hfilled⟩ name hname
      split at hname
      · rename_i heq
        rw [← heq]
        exact exists_fill_iff.1 ⟨values', hfill⟩ (Option.some.inj hname)
      · rename_i hne
        rcases (mem_keys_fill hfill).1 (hrest.1 ⟨filled, hfilled⟩ name hname) with rfl | hmem
        · exact absurd rfl hne
        · exact hmem
    · intro h
      obtain ⟨values', hfill⟩ := exists_fill_iff.2 fun (hnone : entry.2 = none) =>
        h entry.1 (by simp [hnone])
      obtain ⟨filled, hfilled⟩ := hrest.2 fun name hname => (mem_keys_fill hfill).2 (.inr (h name
        (by rwa [if_neg (by rintro rfl; simp [hnotin] at hname)])))
      exact ⟨filled, values', hfill, hfilled⟩

/-- Values for declared names only, filled in from defaults, are values for exactly these names. -/
theorem keys_withDefaults {values filled : Dict Json} {parameters : Dict (Option Json)}
    (hknown : values.firstUnknown? parameters = none)
    (h : values.withDefaults parameters = .ok filled) : filled.keys = parameters.keys := by
  refine keys_eq_iff.2 fun k => ?_
  rw [mem_keys_withDefaults h, or_iff_right_iff_imp]
  exact firstUnknown?_eq_none_iff.1 hknown k

end Dict

end Pipework
