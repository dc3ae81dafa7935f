import Pipework.Proofs.Json.Path

/-!
# Merges of two and three values

What a merge of two values has at a path depends on nothing but what the two have there and on
whether the later one lets the earlier one show (`merge_path_by_path`). Three values can be merged
in either grouping if they are aligned, so that nowhere something other than an object stands
between two objects (`merge_assoc`). There the groupings differ: merged first, what stands in the
middle replaces the object below, and otherwise the object above replaces it.
-/

namespace Pipework.Json

variable {a b c v x : Json} {k : String} {path : List String}

/-- A merge is determined path by path, and tables are merged like the objects that they are. -/
theorem merge_path_by_path :
    (∀ (base update : Json) (path : List String),
      (base.merge update).at? path = match base.at? path, update.at? path with
        | some x, some y => some (x.merge y)
        | none, some y => some y
        | some x, none => if update.Blocks path then none else some x
        | none, none => none)
    ∧ ∀ base update : Dict Json, ofDict (base.merge update) = (ofDict base).merge (ofDict update) :=
  ⟨fun _ _ path => at?_merge path, Dict.ofDict_merge⟩

def dockerSettings : Json :=
  object [("docker", object [("env", object [("X", str "1")]), ("image", str "a")]),
    ("resources", object [("cpu", ofNat 2)])]

def laterSettings : Json :=
  object [("docker", object [("env", object [("Y", str "2")])]), ("resources", str "large")]

/-- Environments are merged, the image is kept, and the resources are gone. -/
theorem merge_path_by_path_settings :
    (dockerSettings.merge laterSettings).at? ["docker", "env"]
      = some (object [("X", str "1"), ("Y", str "2")])
    ∧ (dockerSettings.merge laterSettings).at? ["docker", "image"] = some (str "a")
    ∧ (dockerSettings.merge laterSettings).at? ["docker", "env", "Y"] = some (str "2")
    ∧ (dockerSettings.merge laterSettings).at? ["resources", "cpu"] = none := by
  have hmerge := merge_path_by_path.1 dockerSettings laterSettings
  refine ⟨?_, ?_, ?_, ?_⟩
  · exact (hmerge _).trans (by decide +kernel)
  · exact (hmerge _).trans (by decide +kernel)
  · exact (hmerge _).trans (by decide +kernel)
  · exact (hmerge _).trans (by decide +kernel)

/-! ## Groupings -/

/-- What holds of a value if it holds of its members holds of every value. -/
theorem induction_get? {P : Json → Prop} (step : ∀ v, (∀ k x, v.get? k = some x → P x) → P v)
    (v : Json) : P v := by
  refine step v fun k x h => ?_
  have hsize : sizeOf x < sizeOf v := by
    cases v with
    | obj members =>
      have hmem : (k, x) ∈ members := Entries.mem_of_find? h
      have hlt := List.sizeOf_lt_of_mem hmem
      simp only [Prod.mk.sizeOf_spec, obj.sizeOf_spec] at hlt ⊢
      omega
    | _ => cases h
  exact induction_get? step x
termination_by sizeOf v

/-- Nowhere is something other than an object in the middle where both others have an object. -/
def Aligned (a b c : Json) : Prop :=
  ∀ path x y z, a.at? path = some x → b.at? path = some y → c.at? path = some z →
    x.IsObject → z.IsObject → y.IsObject

theorem Aligned.get? {x y z : Json} (h : Aligned a b c) (hx : a.get? k = some x)
    (hy : b.get? k = some y) (hz : c.get? k = some z) : Aligned x y z := by
  intro path x' y' z' hx' hy' hz'
  refine h (k :: path) x' y' z' ?_ ?_ ?_
  · rwa [at?_cons, hx]
  · rwa [at?_cons, hy]
  · rwa [at?_cons, hz]

/-- The empty object has nothing that could stand in the middle. -/
theorem aligned_empty : Aligned a (ofDict .empty) c := by
  intro path x y z _ hy _ _ _
  cases path with
  | nil => exact Option.some.inj hy ▸ isObject_obj _
  | cons k path => cases hy

/-! The paths at which a value has something are as many as its parts, so that alignment can be
decided. -/

mutual

/-- The paths at which a value has something. -/
def paths : Json → List (List String)
  | .obj members => [] :: memberPaths members
  | _ => [[]]
termination_by structural v => v

def memberPaths : List (String × Json) → List (List String)
  | [] => []
  | (k, x) :: members => x.paths.map (k :: ·) ++ memberPaths members
termination_by structural members => members

end

theorem mem_memberPaths {members : List (String × Json)} (h : (k, x) ∈ members)
    (hpath : path ∈ x.paths) : k :: path ∈ memberPaths members := by
  induction members with
  | nil => cases h
  | cons e members ih =>
    obtain ⟨l, y⟩ := e
    rw [memberPaths, List.mem_append]
    rcases List.mem_cons.1 h with heq | h
    · cases heq
      exact .inl (List.mem_map_of_mem hpath)
    · exact .inr (ih h)

theorem mem_paths (h : v.at? path = some x) : path ∈ v.paths := by
  induction path generalizing v with
  | nil => cases v <;> exact List.mem_cons_self
  | cons k path ih =>
    obtain ⟨y, hy, hyx⟩ := Option.bind_eq_some_iff.1 h
    cases v with
    | obj members =>
      exact List.mem_cons_of_mem _ (mem_memberPaths (Entries.mem_of_find? hy) (ih hyx))
    | _ => cases hy

instance (a b c : Json) : Decidable (Aligned a b c) :=
  decidable_of_iff (∀ path ∈ b.paths, ∀ x ∈ a.at? path, ∀ y ∈ b.at? path, ∀ z ∈ c.at? path,
    x.IsObject → z.IsObject → y.IsObject)
    ⟨fun h path x y z hx hy hz => h path (mem_paths hy) x hx y hy z hz,
      fun h path _ x hx y hy z hz => h path x y z hx hy hz⟩

/-! Of what is put under a key several times only the last counts, and it makes no difference in
which order keys are changed. So two merges into the same object are the same if they put the same
under each key. -/

end Json

namespace Entries

variable {α : Type} {k : String} {c base : List (String × α)} {F G : String → α → α}

/-- The entries with others put among them from the last one on, each after a change. -/
def putAll (F : String → α → α) (c base : List (String × α)) : List (String × α) :=
  c.foldr (fun e l => put e.1 (fun _ => F e.1 e.2) l) base

theorem putAll_cons {x : α} :
    putAll F ((k, x) :: c) base = put k (fun _ => F k x) (putAll F c base) := rfl

/-- What is put under a key before something else is put there is lost. -/
theorem put_putAll (y : α) : put k (fun _ => y) (putAll F c base)
    = put k (fun _ => y) (putAll F (c.filter (·.1 ≠ k)) base) := by
  induction c with
  | nil => rfl
  | cons e c ih =>
    obtain ⟨m, x⟩ := e
    rw [putAll_cons]
    by_cases hm : m = k
    · subst hm
      simp [put_put, ih]
    · have hkept : ((m, x) :: c).filter (·.1 ≠ k) = (m, x) :: c.filter (·.1 ≠ k) := by simp [hm]
      rw [hkept, putAll_cons, put_comm (Ne.symm hm), ih, put_comm (Ne.symm hm)]

theorem find?_filter_ne {m : String} (h : m ≠ k) : find? m (c.filter (·.1 ≠ k)) = find? m c := by
  induction c <;> grind [find?]

theorem find?_filter_self : find? k (c.filter (·.1 ≠ k)) = none :=
  find?_eq_none_of_forall fun e he => by simpa using (List.mem_filter.1 he).2

theorem isSome_find? {x : α} (h : (k, x) ∈ c) : (find? k c).isSome := by
  induction c <;> grind [find?]

/-- It is enough that the same is put for the entries that count. -/
theorem putAll_congr (h : ∀ k x, find? k c = some x → F k x = G k x) :
    putAll F c base = putAll G c base := by
  induction hn : c.length using Nat.strong_induction_on generalizing c with
  | _ n ih =>
    subst hn
    cases c with
    | nil => rfl
    | cons e c =>
      obtain ⟨m, x⟩ := e
      have hfirst : F m x = G m x := h m x (by simp [find?])
      have hrest : putAll F (c.filter (·.1 ≠ m)) base = putAll G (c.filter (·.1 ≠ m)) base := by
        refine ih _ ?_ ?_ rfl
        · have := c.length_filter_le (·.1 ≠ m)
          simp only [List.length_cons]
          omega
        · intro k y hk
          by_cases hm : k = m
          · subst hm
            rw [find?_filter_self] at hk
            cases hk
          · rw [find?_filter_ne hm] at hk
            exact h k y (by rwa [find?, if_neg (Ne.symm hm)])
      rw [putAll_cons, putAll_cons, hfirst, put_putAll, hrest, ← put_putAll]

end Entries

namespace Json

open Entries

variable {a b c v : Json} {k : String}

/-- What becomes of a later value when there may be an earlier one. -/
def mergedInto (old : Option Json) (v : Json) : Json := old.elim v (·.merge v)

theorem mergeMembers_eq (members update : List (String × Json)) :
    mergeMembers members update
      = putAll (fun k v => mergedInto (find? k members) v) update members := by
  induction update with
  | nil => rfl
  | cons e update ih =>
    rw [mergeMembers, putAll_cons, ih]
    cases find? e.1 members <;> rfl

/-- A member that is changed before it is merged is merged last as well. -/
theorem mergeMembers_put (members update : List (String × Json)) (f : Option Json → Json) :
    mergeMembers members (put k f update)
      = put k (fun _ => mergedInto (find? k members) (f (find? k update)))
        (mergeMembers members update) := by
  simp only [mergeMembers_eq]
  fun_induction put k f update with
  | case1 => rfl
  | case2 x r => simp [putAll_cons, put_put, find?]
  | case3 l x r hk hnew => simp [putAll_cons, find?, hk, hnew.2]
  | case4 l x r hk hold ih => simp [putAll_cons, find?, hk, ih, put_comm hk]

/-- Members that are merged in two steps are put, one by one, among those that were merged
before. -/
theorem mergeMembers_mergeMembers (a b c : List (String × Json)) :
    mergeMembers a (mergeMembers b c)
      = putAll (fun k v => mergedInto (find? k a) (mergedInto (find? k b) v)) c
        (mergeMembers a b) := by
  simp only [mergeMembers_eq b c]
  induction c with
  | nil => rfl
  | cons e c ih =>
    obtain ⟨k, v⟩ := e
    rw [putAll_cons, mergeMembers_put, ih, putAll_cons]

/-- Aligned values can be merged in either grouping. -/
theorem merge_assoc (h : Aligned a b c) : (a.merge b).merge c = a.merge (b.merge c) := by
  induction c using induction_get? generalizing a b with
  | step c ih =>
    by_cases hlast : c.IsObject
    · by_cases hfirst : a.IsObject
      · have hmiddle : b.IsObject := h [] a b c rfl rfl rfl hfirst hlast
        obtain ⟨as, rfl⟩ := hfirst
        obtain ⟨bs, rfl⟩ := hmiddle
        obtain ⟨cs, rfl⟩ := hlast
        simp only [merge]
        rw [mergeMembers_mergeMembers, mergeMembers_eq (mergeMembers as bs)]
        refine congrArg obj (putAll_congr ?_)
        intro k z hz
        rw [find?_mergeMembers]
        cases hy : find? k bs with
        | none => rfl
        | some y =>
          cases hx : find? k as with
          | none => rfl
          | some x => exact ih k z hz (h.get? hx hy hz)
      · have hab : a.merge b = b := merge_of_not_isObject fun h => hfirst h.1
        have habc : a.merge (b.merge c) = b.merge c := merge_of_not_isObject fun h => hfirst h.1
        rw [hab, habc]
    · have hlast' (v : Json) : v.merge c = c := merge_of_not_isObject fun h => hlast h.2
      rw [hlast', hlast', hlast']

/-- A value does not stand in its own way. -/
theorem aligned_self (a b : Json) : Aligned a b b := by
  intro path x y z _ hy hz _ hlast
  cases hy.symm.trans hz
  exact hlast

/-- What is there already changes nothing when it is put there again. -/
theorem putAll_self (members : List (String × Json)) :
    putAll (fun k v => (find? k members).getD v) members members = members := by
  suffices h : ∀ rest, rest <:+ members →
      putAll (fun k v => (find? k members).getD v) rest members = members from
    h members (List.suffix_refl _)
  intro rest hrest
  induction rest with
  | nil => rfl
  | cons e rest ih =>
    obtain ⟨k, v⟩ := e
    obtain ⟨x, hx⟩ := Option.isSome_iff_exists.1 (isSome_find? (hrest.subset List.mem_cons_self))
    rw [putAll_cons, ih ((List.suffix_cons _ _).trans hrest)]
    exact put_of_find? hx (by simp [hx])

/-- A value that is merged into itself stays as it is. -/
theorem merge_self (v : Json) : v.merge v = v := by
  induction v using induction_get? with
  | step v ih =>
    by_cases hobject : v.IsObject
    · obtain ⟨members, rfl⟩ := hobject
      simp only [merge, mergeMembers_eq]
      refine congrArg obj (Eq.trans (putAll_congr ?_) (putAll_self members))
      intro k x hx
      rw [hx]
      exact ih k x hx
    · exact merge_of_not_isObject fun h => hobject h.1

end Pipework.Json

namespace Pipework.Dict

variable {a b c : Dict Json}

/-- Three tables are aligned as objects. -/
def Aligned (a b c : Dict Json) : Prop :=
  Json.Aligned (Json.ofDict a) (Json.ofDict b) (Json.ofDict c)

instance (a b c : Dict Json) : Decidable (a.Aligned b c) :=
  inferInstanceAs (Decidable (Json.Aligned (Json.ofDict a) (Json.ofDict b) (Json.ofDict c)))

theorem aligned_empty (a c : Dict Json) : a.Aligned .empty c := Json.aligned_empty

theorem merge_assoc (h : a.Aligned b c) : (a.merge b).merge c = a.merge (b.merge c) := by
  have hassoc := Json.merge_assoc h
  simp only [← ofDict_merge] at hassoc
  exact ext_entries (Json.obj.inj hassoc)

/-- What has been merged already changes nothing when it is merged again. -/
theorem merge_again (a b : Dict Json) : (a.merge b).merge b = a.merge b := by
  have hself := Json.merge_self (Json.ofDict b)
  rw [← ofDict_merge] at hself
  rw [merge_assoc (Json.aligned_self _ _), ext_entries (Json.obj.inj hself)]

end Pipework.Dict
