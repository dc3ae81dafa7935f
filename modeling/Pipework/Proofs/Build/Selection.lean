import Pipework.Proofs.Dispatch.CodeReference

/-!
# Which build a run gets

A run gets the build that it asks for, or none where its stack needs none, or the newest build that
matches its requirements, or one that is made for it; `Coordinator.SelectsBuild` says when it is
which. Whatever a run gets is what the next one gets that may reuse builds, and nothing is made for
that one (`Coordinator.selectsBuild_resolveBuild`).
-/

namespace Pipework

/-! ## Stored builds -/

namespace Store

variable {s : Store} {id stack : Uuid} {checksum : String} {b : Record Build}

/-- The build is the first one that is stored under the id. -/
def BuildOf (s : Store) (id : Uuid) (b : Record Build) : Prop :=
  ∃ earlier later, s.builds = earlier ++ b :: later ∧ b.id = id ∧ ∀ x ∈ earlier, x.id ≠ id

/-- The build is for the stack and has the checksum, and is the last one to do so. -/
def NewestBuild (s : Store) (stack : Uuid) (checksum : String) (b : Record Build) : Prop :=
  ∃ earlier later, s.builds = earlier ++ b :: later
    ∧ (b.body.stack = stack ∧ b.body.checksum = checksum)
    ∧ ∀ x ∈ later, ¬(x.body.stack = stack ∧ x.body.checksum = checksum)

theorem getBuild_eq_ok_iff : s.getBuild id = .ok b ↔ s.BuildOf id b := by
  have hfind : s.getBuild id = .ok b ↔ s.builds.find? (·.id = id) = some b := by
    rw [getBuild]
    cases s.builds.find? (·.id = id) <;> simp
  rw [hfind, List.find?_eq_some_iff_append]
  constructor
  · rintro ⟨hid, earlier, later, hbuilds, hearlier⟩
    exact ⟨earlier, later, hbuilds, by simpa using hid, by simpa using hearlier⟩
  · rintro ⟨earlier, later, hbuilds, hid, hearlier⟩
    exact ⟨by simpa using hid, earlier, later, hbuilds, by simpa using hearlier⟩

theorem getBuild_of_forall_ne (h : ∀ b ∈ s.builds, b.id ≠ id) :
    s.getBuild id = .error (.notFound "Build" id.toText) := by
  have hfind : s.builds.find? (·.id = id) = none := List.find?_eq_none.2 (by simpa using h)
  rw [getBuild, hfind]

/-- The listing of the builds of a stack with a checksum starts with the newest. -/
theorem first?_listBuilds_eq_some_iff :
    (s.listBuilds { stack, checksum }).first? = some b ↔ s.NewestBuild stack checksum b := by
  have haccepts (x : Record Build) : BuildFilter.accepts { stack, checksum } x.body = true
      ↔ x.body.stack = stack ∧ x.body.checksum = checksum := by
    simp [BuildFilter.accepts]
  simp only [listBuilds, Page.ofList, Page.first?, List.head?_filter,
    List.find?_eq_some_iff_append, haccepts, Bool.not_eq_true', ← Bool.not_eq_true]
  constructor
  · rintro ⟨hmatch, newer, older, hbuilds, hnewer⟩
    refine ⟨older.reverse, newer.reverse, ?_, hmatch, fun x hx => hnewer x (List.mem_reverse.1 hx)⟩
    simpa using congrArg List.reverse hbuilds
  · rintro ⟨older, newer, hbuilds, hmatch, hnewer⟩
    exact ⟨hmatch, newer.reverse, older.reverse, by simp [hbuilds],
      fun x hx => hnewer x (List.mem_reverse.1 hx)⟩

theorem first?_listBuilds_eq_none_iff : (s.listBuilds { stack, checksum }).first? = none
    ↔ ∀ b ∈ s.builds, ¬(b.body.stack = stack ∧ b.body.checksum = checksum) := by
  simp [listBuilds, Page.ofList, Page.first?, BuildFilter.accepts]

theorem exists_buildOf_or_forall_ne (s : Store) (id : Uuid) :
    (∃ b, s.BuildOf id b) ∨ ∀ b ∈ s.builds, b.id ≠ id := by
  cases hfind : s.builds.find? (·.id = id) with
  | none => exact .inr (by simpa using hfind)
  | some b => exact .inl ⟨b, getBuild_eq_ok_iff.1 (by rw [getBuild, hfind])⟩

theorem exists_newestBuild_or_forall_not (s : Store) (stack : Uuid) (checksum : String) :
    (∃ b, s.NewestBuild stack checksum b)
      ∨ ∀ b ∈ s.builds, ¬(b.body.stack = stack ∧ b.body.checksum = checksum) := by
  cases hfirst : (s.listBuilds { stack, checksum }).first? with
  | none => exact .inr (first?_listBuilds_eq_none_iff.1 hfirst)
  | some b => exact .inl ⟨b, first?_listBuilds_eq_some_iff.1 hfirst⟩

end Store

/-! ## Selection -/

namespace Coordinator

variable {c : Coordinator} {d : Deployment} {pipeline : Option Uuid} {downloads reuse : Bool}
  {w : World} {id : Uuid} {b : Record Build}

/-- The checksum by which the builds for a deployment are known. -/
def buildChecksum (c : Coordinator) (d : Deployment) (downloads : Bool) : String :=
  BuildRequirement.checksum (c.stack.requirements d) downloads

/-- When a run gets which build, and what it leaves behind. -/
structure SelectsBuild (c : Coordinator) (d : Deployment) (pipeline : Option Uuid)
    (downloads reuse : Bool) (w : World) (outcome : Except Error (Option (Record Build)))
    (w' : World) : Prop where
  asked : ∀ id b, d.build = some id → w.store.BuildOf id b → b.body.stack = c.stack.id →
    outcome = .ok (some b)
  missing : ∀ id, d.build = some id → (∀ b ∈ w.store.builds, b.id ≠ id) →
    outcome = .error (.store (.notFound "Build" id.toText))
  foreign : ∀ id b, d.build = some id → w.store.BuildOf id b → b.body.stack ≠ c.stack.id →
    outcome = .error (.stack (.validation c.stack.name d.configuration.name
      ("build " ++ quoted id.toText ++ " was created for stack "
        ++ quoted b.body.stack.toText)))
  keeps_of_asked : d.build ≠ none → w' = w
  eq_none_iff : d.build = none → (outcome = .ok none ↔ c.stack.requirements d = [])
  keeps_of_unneeded : d.build = none → c.stack.requirements d = [] → w' = w
  reused : ∀ b, d.build = none → c.stack.requirements d ≠ [] → reuse = true →
    w.store.NewestBuild c.stack.id (c.buildChecksum d downloads) b → outcome = .ok (some b) ∧ w' = w
  made : d.build = none → c.stack.requirements d ≠ [] →
    (reuse = true → ∀ b ∈ w.store.builds,
      ¬(b.body.stack = c.stack.id ∧ b.body.checksum = c.buildChecksum d downloads)) →
    ∃ b : Record Build, outcome = .ok (some b)
      ∧ b.body = {
          stack := c.stack.id
          pipeline
          checksum := c.buildChecksum d downloads
          requirements := c.stack.requirements d
          downloadsCode := downloads
          user := w.store.user.id
          workspace := w.store.workspace.id }
      ∧ w' = { w with
          ids := w.ids.next.2
          store := { w.store with
            builds := w.store.builds ++ [b]
            calls := { w.store.calls with createBuild := w.store.calls.createBuild + 1 } } }

/-- A build that is asked for is looked up and has to be of the stack. -/
theorem resolveBuild_of_asked (hasked : d.build = some id) :
    c.resolveBuild d pipeline downloads reuse w = match w.store.getBuild id with
      | .error cause => (.error (.store cause), w)
      | .ok b =>
        if b.body.stack = c.stack.id then (.ok (some b), w)
        else (.error (.stack (.validation c.stack.name d.configuration.name
          ("build " ++ quoted id.toText ++ " was created for stack "
            ++ quoted b.body.stack.toText))), w) := by
  simp only [resolveBuild, hasked, Effect.map_eq, explicitBuild]
  cases w.store.getBuild id with
  | error => rfl
  | ok =>
    dsimp only
    split <;> rfl

theorem resolveBuild_of_buildOf (hasked : d.build = some id) (h : w.store.BuildOf id b)
    (hstack : b.body.stack = c.stack.id) :
    c.resolveBuild d pipeline downloads reuse w = (.ok (some b), w) := by
  rw [resolveBuild_of_asked hasked, Store.getBuild_eq_ok_iff.2 h]
  exact if_pos hstack

theorem resolveBuild_of_missing (hasked : d.build = some id)
    (h : ∀ b ∈ w.store.builds, b.id ≠ id) : c.resolveBuild d pipeline downloads reuse w
      = (.error (.store (.notFound "Build" id.toText)), w) := by
  rw [resolveBuild_of_asked hasked, Store.getBuild_of_forall_ne h]

theorem resolveBuild_of_foreign (hasked : d.build = some id) (h : w.store.BuildOf id b)
    (hstack : b.body.stack ≠ c.stack.id) : c.resolveBuild d pipeline downloads reuse w
      = (.error (.stack (.validation c.stack.name d.configuration.name
          ("build " ++ quoted id.toText ++ " was created for stack "
            ++ quoted b.body.stack.toText))), w) := by
  rw [resolveBuild_of_asked hasked, Store.getBuild_eq_ok_iff.2 h]
  exact if_neg hstack

theorem resolveBuild_of_unneeded (hasked : d.build = none) (h : c.stack.requirements d = []) :
    c.resolveBuild d pipeline downloads reuse w = (.ok none, w) := by
  rw [resolveBuild, hasked]
  cases reuse <;> simp [createBuild, h] <;> rfl

/-- Where builds may be reused, the newest one that matches is looked for first. -/
theorem resolveBuild_of_reuse (hasked : d.build = none) (hneeds : c.stack.requirements d ≠ []) :
    c.resolveBuild d pipeline downloads true w = match c.reusableBuild? d downloads w.store with
      | some b => (.ok (some b), w)
      | none => c.createBuild d pipeline downloads w := by
  have hview : Effect.view (fun w => c.reusableBuild? d downloads w.store) w
    = (.ok (c.reusableBuild? d downloads w.store), w) := rfl
  simp only [resolveBuild, hasked, List.isEmpty_iff, hneeds, if_true, if_false]
  rw [Effect.bind_of_ok hview]
  cases c.reusableBuild? d downloads w.store <;> rfl

theorem resolveBuild_of_newestBuild (hasked : d.build = none) (hneeds : c.stack.requirements d ≠ [])
    (h : w.store.NewestBuild c.stack.id (c.buildChecksum d downloads) b) :
    c.resolveBuild d pipeline downloads true w = (.ok (some b), w) := by
  have hfound : c.reusableBuild? d downloads w.store = some b :=
    Store.first?_listBuilds_eq_some_iff.2 h
  rw [resolveBuild_of_reuse hasked hneeds, hfound]

theorem createBuild_of_needed (hneeds : c.stack.requirements d ≠ []) :
    c.createBuild d pipeline downloads w
      = (.ok (some (w.createBuild (c.newBuild d pipeline downloads w.store)).1),
        (w.createBuild (c.newBuild d pipeline downloads w.store)).2) := by
  simp only [createBuild, List.isEmpty_iff, hneeds, if_false]
  rfl

theorem resolveBuild_of_unmatched (hasked : d.build = none) (hneeds : c.stack.requirements d ≠ [])
    (h : reuse = true → ∀ b ∈ w.store.builds,
      ¬(b.body.stack = c.stack.id ∧ b.body.checksum = c.buildChecksum d downloads)) :
    c.resolveBuild d pipeline downloads reuse w
      = (.ok (some (w.createBuild (c.newBuild d pipeline downloads w.store)).1),
        (w.createBuild (c.newBuild d pipeline downloads w.store)).2) := by
  cases reuse with
  | false =>
    simp only [resolveBuild, hasked, Bool.false_eq_true, if_false]
    exact createBuild_of_needed hneeds
  | true =>
    have hnone : c.reusableBuild? d downloads w.store = none :=
      Store.first?_listBuilds_eq_none_iff.2 (h rfl)
    rw [resolveBuild_of_reuse hasked hneeds, hnone]
    exact createBuild_of_needed hneeds

/-- A build that has just been made is the newest of its stack with its checksum. -/
theorem newestBuild_createBuild :
    (w.createBuild (c.newBuild d pipeline downloads w.store)).2.store.NewestBuild c.stack.id
      (c.buildChecksum d downloads)
      (w.createBuild (c.newBuild d pipeline downloads w.store)).1 :=
  ⟨w.store.builds, [], rfl, ⟨rfl, rfl⟩, List.forall_mem_nil _⟩

/-- A build that is needed is there and may be reused, or is made. -/
theorem resolveBuild_of_needed (hasked : d.build = none) (hneeds : c.stack.requirements d ≠ []) :
    (∃ b, reuse = true ∧ w.store.NewestBuild c.stack.id (c.buildChecksum d downloads) b
        ∧ c.resolveBuild d pipeline downloads reuse w = (.ok (some b), w))
      ∨ c.resolveBuild d pipeline downloads reuse w
        = (.ok (some (w.createBuild (c.newBuild d pipeline downloads w.store)).1),
          (w.createBuild (c.newBuild d pipeline downloads w.store)).2) := by
  cases reuse with
  | false => exact .inr (resolveBuild_of_unmatched hasked hneeds fun h => by cases h)
  | true =>
    rcases w.store.exists_newestBuild_or_forall_not c.stack.id (c.buildChecksum d downloads) with
      ⟨b, h⟩ | h
    · exact .inl ⟨b, rfl, h, resolveBuild_of_newestBuild hasked hneeds h⟩
    · exact .inr (resolveBuild_of_unmatched hasked hneeds fun _ => h)

/-- What a run got is there for the next one. -/
theorem resolveBuild_again {build : Option (Record Build)} {w' : World}
    (h : c.resolveBuild d pipeline downloads reuse w = (.ok build, w')) (pipeline' : Option Uuid) :
    c.resolveBuild d pipeline' downloads true w' = (.ok build, w') := by
  cases hasked : d.build with
  | some id =>
    rcases w.store.exists_buildOf_or_forall_ne id with ⟨b, hb⟩ | hmissing
    · by_cases hstack : b.body.stack = c.stack.id
      · cases (resolveBuild_of_buildOf hasked hb hstack).symm.trans h
        exact resolveBuild_of_buildOf hasked hb hstack
      · cases (resolveBuild_of_foreign hasked hb hstack).symm.trans h
    · cases (resolveBuild_of_missing hasked hmissing).symm.trans h
  | none =>
    by_cases hneeds : c.stack.requirements d = []
    · cases (resolveBuild_of_unneeded hasked hneeds).symm.trans h
      exact resolveBuild_of_unneeded hasked hneeds
    · rcases resolveBuild_of_needed hasked hneeds with ⟨b, -, hnewest, hreused⟩ | hmade
      · cases hreused.symm.trans h
        exact resolveBuild_of_newestBuild hasked hneeds hnewest
      · cases hmade.symm.trans h
        exact resolveBuild_of_newestBuild hasked hneeds newestBuild_createBuild

/-- A run gets the build that it has to get, and one after it that may reuse builds gets the same
and changes nothing. -/
theorem selectsBuild_resolveBuild (c : Coordinator) (d : Deployment) (pipeline : Option Uuid)
    (downloads reuse : Bool) (w : World) :
    c.SelectsBuild d pipeline downloads reuse w (c.resolveBuild d pipeline downloads reuse w).1
        (c.resolveBuild d pipeline downloads reuse w).2
      ∧ ∀ build w', c.resolveBuild d pipeline downloads reuse w = (.ok build, w') →
        ∀ pipeline', c.resolveBuild d pipeline' downloads true w' = (.ok build, w') := by
  refine ⟨?_, fun build w' h => resolveBuild_again h⟩
  constructor
  case asked =>
    intro id b hasked hb hstack
    rw [resolveBuild_of_buildOf hasked hb hstack]
  case missing =>
    intro id hasked hmissing
    rw [resolveBuild_of_missing hasked hmissing]
  case foreign =>
    intro id b hasked hb hstack
    rw [resolveBuild_of_foreign hasked hb hstack]
  case keeps_of_asked =>
    intro hasked
    obtain ⟨id, hasked⟩ := Option.ne_none_iff_exists'.1 hasked
    rw [resolveBuild_of_asked hasked]
    cases w.store.getBuild id with
    | error => rfl
    | ok =>
      dsimp only
      split <;> rfl
  case eq_none_iff =>
    intro hasked
    by_cases hneeds : c.stack.requirements d = []
    · rw [resolveBuild_of_unneeded hasked hneeds]
      exact iff_of_true rfl hneeds
    · refine iff_of_false ?_ hneeds
      rcases resolveBuild_of_needed hasked hneeds with ⟨b, -, -, h⟩ | h
      · rw [h]
        exact fun h => by cases h
      · rw [h]
        exact fun h => by cases h
  case keeps_of_unneeded =>
    intro hasked hneeds
    rw [resolveBuild_of_unneeded hasked hneeds]
  case reused =>
    rintro b hasked hneeds rfl hnewest
    rw [resolveBuild_of_newestBuild hasked hneeds hnewest]
    exact ⟨rfl, rfl⟩
  case made =>
    intro hasked hneeds hunmatched
    rw [resolveBuild_of_unmatched hasked hneeds hunmatched]
    exact ⟨_, rfl, rfl, rfl⟩

end Coordinator

namespace Sample

open Coordinator

/-- A build for the deployment of the sample pipeline, on some stack. -/
def storedBuild (id stack : Uuid) : Record Build where
  stamp := { id, created := default }
  body := { builder.newBuild compiled.1 none false preparedSession.world.store with stack }

/-- The world of the prepared pipeline with two builds for it, and a later one for another stack. -/
def stocked : World :=
  { preparedSession.world with store := { preparedSession.world.store with
      builds := [storedBuild (.ofNat 31) (.ofNat 1), storedBuild (.ofNat 32) (.ofNat 1),
        storedBuild (.ofNat 33) (.ofNat 2)] } }

/-- The second of the builds is reused, and is reused again after that. -/
theorem selectsBuild_stocked :
    builder.resolveBuild compiled.1 none false true stocked
        = (.ok (some (storedBuild (.ofNat 32) (.ofNat 1))), stocked)
      ∧ builder.resolveBuild compiled.1 (some (.ofNat 5)) false true stocked
        = (.ok (some (storedBuild (.ofNat 32) (.ofNat 1))), stocked) := by
  have hnewest : stocked.store.NewestBuild builder.stack.id
      (builder.buildChecksum compiled.1 false) (storedBuild (.ofNat 32) (.ofNat 1)) :=
    ⟨[storedBuild (.ofNat 31) (.ofNat 1)], [storedBuild (.ofNat 33) (.ofNat 2)], rfl, ⟨rfl, rfl⟩,
      fun x hx h => absurd (List.mem_singleton.1 hx ▸ h.1) (by decide)⟩
  obtain ⟨hselects, hagain⟩ :=
    selectsBuild_resolveBuild builder compiled.1 none false true stocked
  obtain ⟨houtcome, hworld⟩ := hselects.reused _ rfl (by decide) rfl hnewest
  have hfirst : builder.resolveBuild compiled.1 none false true stocked
    = (.ok (some (storedBuild (.ofNat 32) (.ofNat 1))), stocked) := Prod.ext houtcome hworld
  exact ⟨hfirst, hagain _ _ hfirst (some (.ofNat 5))⟩

end Sample

end Pipework
