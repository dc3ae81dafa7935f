import Pipework.Json.Merge
import Pipework.Proofs.Dict.Filling

/-!
# Paths into merged values

A value settles a path if it has a value there, or something other than an object on the way. Of
two values that are merged the later one decides what is found at the paths that it settles, and
the earlier one at all others, and where both have a value the two are merged (`Json.at?_merge`). So
a value that is merged from several layers, however these were grouped, has at each path what the
highest layer that settles the path has there, except where that is an object, which layers below
may add to.
-/

namespace Pipework

namespace Entries

variable {k : String} {members update : List (String × Json)}

/-- What stands under a key after a merge. -/
theorem find?_mergeMembers : find? k (Json.mergeMembers members update) = match find? k update with
    | some x => some ((find? k members).elim x (·.merge x))
    | none => find? k members := by
  induction update with
  | nil => rfl
  | cons e update ih =>
    rw [Json.mergeMembers, find?_put, find?_cons, ih]
    split
    · rename_i hk
      subst hk
      cases find? e.1 members <;> rfl
    · rfl

end Entries

namespace Json

variable {base update v x : Json} {k : String} {path : List String}

def IsObject (v : Json) : Prop := ∃ members, v = .obj members

theorem isObject_obj (members : List (String × Json)) : (obj members).IsObject := ⟨members, rfl⟩

instance : (v : Json) → Decidable v.IsObject
  | .obj members => isTrue (isObject_obj members)
  | .null | .bool _ | .num _ | .str _ | .arr _ => isFalse nofun

theorem IsObject.of_get? (h : v.get? k = some x) : v.IsObject := by
  cases v with
  | obj members => exact isObject_obj members
  | _ => cases h

/-! ## Merged values -/

theorem merge_of_not_isObject (h : ¬ (base.IsObject ∧ update.IsObject)) :
    base.merge update = update := by
  cases update with
  | obj members =>
    cases base with
    | obj old => exact absurd ⟨isObject_obj old, isObject_obj members⟩ h
    | _ => rfl
  | _ => rfl

theorem isObject_merge (h : update.IsObject) : (base.merge update).IsObject := by
  obtain ⟨members, rfl⟩ := h
  cases base with
  | obj old => exact isObject_obj _
  | _ => exact isObject_obj _

/-- A member of a merged object comes from either object, or it is merged itself. -/
theorem get?_merge (hobject : base.IsObject) (hobject' : update.IsObject) :
    (base.merge update).get? k = match update.get? k with
      | some x => some ((base.get? k).elim x (·.merge x))
      | none => base.get? k := by
  obtain ⟨members, rfl⟩ := hobject
  obtain ⟨later, rfl⟩ := hobject'
  exact Entries.find?_mergeMembers

/-! ## Settled paths -/

/-- Whether a value has something other than an object on the way to a path. -/
def Blocks (v : Json) (path : List String) : Prop :=
  ∃ front x, front <+: path ∧ front ≠ path ∧ v.at? front = some x ∧ ¬ x.IsObject

/-- Whether a value has a value at a path, or something other than an object on the way. -/
def Settles (v : Json) (path : List String) : Prop :=
  (∃ x, v.at? path = some x)
    ∨ ∃ front x, front <+: path ∧ front ≠ path ∧ v.at? front = some x ∧ ¬ x.IsObject

theorem settles_iff : v.Settles path ↔ (∃ x, v.at? path = some x) ∨ v.Blocks path := Iff.rfl

theorem at?_cons : v.at? (k :: path) = (v.get? k).bind (at? path) := rfl

@[simp] theorem settles_nil : v.Settles [] := .inl ⟨v, rfl⟩

@[simp] theorem not_blocks_nil : ¬ v.Blocks [] := by
  rintro ⟨front, x, hfront, hne, -⟩
  exact hne (List.prefix_nil.1 hfront)

theorem blocks_cons :
    v.Blocks (k :: path) ↔ ¬ v.IsObject ∨ ∃ x, v.get? k = some x ∧ x.Blocks path := by
  constructor
  · rintro ⟨front, y, hfront, hne, hy, hobject⟩
    cases front with
    | nil =>
      cases hy
      exact .inl hobject
    | cons l front =>
      obtain ⟨rfl, hrest⟩ := List.cons_prefix_cons.1 hfront
      obtain ⟨x, hx, hxy⟩ := Option.bind_eq_some_iff.1 hy
      exact .inr ⟨x, hx, front, y, hrest, fun h => hne (by rw [h]), hxy, hobject⟩
  · rintro (hobject | ⟨x, hx, front, y, hfront, hne, hy, hobject⟩)
    · exact ⟨[], v, List.nil_prefix, nofun, rfl, hobject⟩
    · refine ⟨k :: front, y, List.cons_prefix_cons.2 ⟨rfl, hfront⟩, ?_, ?_, hobject⟩
      · exact fun h => hne (List.cons.inj h).2
      · rw [at?_cons, hx, Option.bind_some, hy]

theorem settles_cons :
    v.Settles (k :: path) ↔ ¬ v.IsObject ∨ ∃ x, v.get? k = some x ∧ x.Settles path := by
  have hfound : (∃ y, v.at? (k :: path) = some y)
      ↔ ∃ x, v.get? k = some x ∧ ∃ y, x.at? path = some y := by
    simp only [at?_cons, Option.bind_eq_some_iff]
    exact ⟨fun ⟨y, x, hx, hy⟩ => ⟨x, hx, y, hy⟩, fun ⟨x, hx, y, hy⟩ => ⟨y, x, hx, hy⟩⟩
  rw [settles_iff, blocks_cons, hfound, or_left_comm]
  simp only [settles_iff, and_or_left, exists_or]

/-- Where there is something other than an object on the way, there is no value. -/
theorem at?_of_blocks (h : v.Blocks path) : v.at? path = none := by
  induction path generalizing v with
  | nil => exact absurd h not_blocks_nil
  | cons k path ih =>
    rw [at?_cons, Option.bind_eq_none_iff]
    intro x hx
    rcases blocks_cons.1 h with hobject | ⟨y, hy, hblocks⟩
    · exact absurd (.of_get? hx) hobject
    · cases hx.symm.trans hy
      exact ih hblocks

instance decidableSettles : (path : List String) → (v : Json) → Decidable (v.Settles path)
  | [], _ => isTrue settles_nil
  | k :: path, v => match h : v.get? k with
    | none => decidable_of_iff (¬ v.IsObject) (by simp [settles_cons, h])
    | some x =>
      let _ := decidableSettles path x
      decidable_of_iff (¬ v.IsObject ∨ x.Settles path) (by simp [settles_cons, h])

instance (path : List String) (v : Json) : Decidable (v.Blocks path) :=
  decidable_of_iff (v.Settles path ∧ (v.at? path).isNone) <| by
    rw [settles_iff, Option.isNone_iff_eq_none]
    constructor
    · rintro ⟨⟨x, hx⟩ | hblocks, hnone⟩
      · cases hnone.symm.trans hx
      · exact hblocks
    · exact fun hblocks => ⟨.inr hblocks, at?_of_blocks hblocks⟩

/-- What is found at a path after a merge is merged from what both values have there, or it is what
one of them has there, that of the earlier value only if the later one lets it show. -/
theorem at?_merge (path : List String) :
    (base.merge update).at? path = match base.at? path, update.at? path with
      | some x, some y => some (x.merge y)
      | none, some y => some y
      | some x, none => if update.Blocks path then none else some x
      | none, none => none := by
  induction path generalizing base update with
  | nil => rfl
  | cons k path ih =>
    by_cases hobject' : update.IsObject
    · have hblocks : update.Blocks (k :: path) ↔ ∃ y, update.get? k = some y ∧ y.Blocks path := by
        rw [blocks_cons, or_iff_right (not_not_intro hobject')]
      by_cases hobject : base.IsObject
      · simp only [at?_cons, get?_merge hobject hobject', hblocks]
        cases hy : update.get? k with
        | none =>
          cases base.get? k with
          | none => simp
          | some x => cases hx : x.at? path <;> simp [hx]
        | some y =>
          cases hx : base.get? k with
          | none => cases hy : y.at? path <;> simp [hy]
          | some x => simpa using ih
      · have hnone : base.at? (k :: path) = none := at?_of_blocks (blocks_cons.2 (.inl hobject))
        rw [merge_of_not_isObject fun h => hobject h.1, hnone]
        cases update.at? (k :: path) <;> rfl
    · have hblocks : update.Blocks (k :: path) := blocks_cons.2 (.inl hobject')
      rw [merge_of_not_isObject fun h => hobject' h.2, at?_of_blocks hblocks]
      cases base.at? (k :: path) with
      | none => rfl
      | some x => exact (if_pos hblocks).symm

/-- What the later value has at a path and cannot be added to is found after the merge. -/
theorem at?_merge_of_later (h : update.at? path = some v) (hv : ¬ v.IsObject) :
    (base.merge update).at? path = some v := by
  rw [at?_merge, h]
  cases base.at? path with
  | none => rfl
  | some x => exact congrArg some (merge_of_not_isObject fun h => hv h.2)

/-- What the earlier value has at a path that the later one leaves open is found after the merge. -/
theorem at?_merge_of_earlier (hopen : ¬ update.Settles path) (h : base.at? path = some v) :
    (base.merge update).at? path = some v := by
  obtain ⟨hnone, hblocks⟩ := not_or.1 hopen
  rw [at?_merge, h, Option.eq_none_iff_forall_ne_some.2 (not_exists.1 hnone)]
  exact if_neg hblocks

/-- What a merge has at a path comes from one of the values, and it is an object if that was one. -/
theorem exists_of_at?_merge (h : (base.merge update).at? path = some v) :
    ∃ x, (update.at? path = some x ∨ base.at? path = some x) ∧ (x.IsObject → v.IsObject) := by
  rw [at?_merge] at h
  cases hlater : update.at? path with
  | some y =>
    refine ⟨y, .inl rfl, fun hy => ?_⟩
    cases hearlier : base.at? path with
    | some x =>
      simp only [hearlier, hlater, Option.some.injEq] at h
      exact h ▸ isObject_merge hy
    | none =>
      simp only [hearlier, hlater, Option.some.injEq] at h
      exact h ▸ hy
  | none =>
    cases hearlier : base.at? path with
    | some x =>
      simp only [hearlier, hlater, Option.ite_none_left_eq_some, Option.some.injEq] at h
      exact ⟨x, .inr rfl, fun hx => h.2 ▸ hx⟩
    | none => simp [hearlier, hlater] at h

/-- A merge leaves open what both values leave open. -/
theorem not_settles_merge (hopen : ¬ base.Settles path) (hopen' : ¬ update.Settles path) :
    ¬ (base.merge update).Settles path := by
  rintro (⟨v, hv⟩ | ⟨front, v, hfront, hne, hv, hobject⟩)
  · obtain ⟨x, hx | hx, -⟩ := exists_of_at?_merge hv
    · exact hopen' (.inl ⟨x, hx⟩)
    · exact hopen (.inl ⟨x, hx⟩)
  · obtain ⟨x, hx | hx, hkept⟩ := exists_of_at?_merge hv
    · exact hopen' (.inr ⟨front, x, hfront, hne, hx, mt hkept hobject⟩)
    · exact hopen (.inr ⟨front, x, hfront, hne, hx, mt hkept hobject⟩)

/-! ## Layers -/

/-- Whether the first of these layers that settles the path has this value there. -/
def Prevails (path : List String) (v : Json) : List Json → Prop
  | [] => False
  | l :: layers => l.at? path = some v ∨ ¬ l.Settles path ∧ Prevails path v layers

instance decidablePrevails (path : List String) (v : Json) :
    (layers : List Json) → Decidable (Prevails path v layers)
  | [] => isFalse id
  | l :: layers =>
    let _ := decidablePrevails path v layers
    inferInstanceAs (Decidable (l.at? path = some v ∨ ¬ l.Settles path ∧ Prevails path v layers))

theorem prevails_append {upper lower : List Json} :
    Prevails path v (upper ++ lower) ↔
      Prevails path v upper ∨ (∀ l ∈ upper, ¬ l.Settles path) ∧ Prevails path v lower := by
  induction upper with
  | nil => simp [Prevails]
  | cons l upper ih =>
    rw [List.cons_append, Prevails, Prevails, ih, List.forall_mem_cons]
    tauto

/-- An object at no depth is nothing but an object. -/
theorem Prevails.ne_nil {layers : List Json} (h : Prevails path v layers)
    (hlayers : ∀ l ∈ layers, l.IsObject) (hv : ¬ v.IsObject) : path ≠ [] := by
  rintro rfl
  cases layers with
  | nil => exact h
  | cons l layers =>
    rcases h with h | ⟨hopen, -⟩
    · cases h
      exact hv (hlayers _ List.mem_cons_self)
    · exact hopen settles_nil

/-- What a value shows of the layers that it was merged from, the highest layer first. -/
structure Resolves (v : Json) (layers : List Json) : Prop where
  /-- No path is settled but by some layer. -/
  opened : ∀ path, path ≠ [] → (∀ l ∈ layers, ¬ l.Settles path) → ¬ v.Settles path
  /-- The highest layer that settles a path is seen there. -/
  found : ∀ path x, path ≠ [] → ¬ x.IsObject → Prevails path x layers → v.at? path = some x

namespace Resolves

variable {upper lower : List Json}

theorem single (v : Json) : v.Resolves [v] where
  opened _ _ hopen := hopen v List.mem_cons_self
  found path x _ _ hx := by simpa [Prevails] using hx

/-- Layers can be merged in groups, as long as higher ones come later. -/
theorem merge (hbase : base.Resolves lower) (hupdate : update.Resolves upper) :
    (base.merge update).Resolves (upper ++ lower) where
  opened path hpath hopen :=
    not_settles_merge
      (hbase.opened path hpath fun l hl => hopen l (List.mem_append_right _ hl))
      (hupdate.opened path hpath fun l hl => hopen l (List.mem_append_left _ hl))
  found path x hpath hx h := by
    rcases prevails_append.1 h with h | ⟨hopen, h⟩
    · exact at?_merge_of_later (hupdate.found path x hpath hx h) hx
    · exact at?_merge_of_earlier (hupdate.opened path hpath hopen) (hbase.found path x hpath hx h)

end Resolves

end Json

end Pipework
