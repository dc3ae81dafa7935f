import Pipework.Store.Basic

/-!
# Stores that only grow

Whatever is asked of a store, its records stay where they are, new ones come after them, and no two
versions share name and number (`Store.Continues`, `Store.Distinct`). A version is refused exactly
where its number is taken, and listings show exactly what matches their filter
(`Store.kept_and_listed`).
-/

namespace Pipework

/-- A request to create or to list records. A record that is created gets the stamp. -/
inductive StoreRequest where
  | createPipeline (stamp : Stamp) (version : PipelineVersion)
  | createSchedule (stamp : Stamp) (entry : ScheduleEntry)
  | createBuild (stamp : Stamp) (build : Build)
  | createDeployment (stamp : Stamp) (entry : DeploymentEntry)
  | listPipelines (filter : PipelineFilter)
  | listBuilds (filter : BuildFilter)

/-! ## Listings -/

/-- Whether a page has the records with a property, the newest first and no more than asked for, and
tells how many there are. -/
structure Page.Shows {α : Type} (p : Page α) (records : List α) (matching : α → Prop)
    [DecidablePred matching] (size : Option Nat) : Prop where
  items : p.items = match size with
    | none => (records.filter matching).reverse
    | some n => (records.filter matching).reverse.take n
  total : p.total = records.countP matching

theorem Page.shows_ofList {α : Type} {records : List α} {matching : α → Prop}
    [DecidablePred matching] {accepts : α → Bool} (h : ∀ r, accepts r = true ↔ matching r)
    (size : Option Nat) : (Page.ofList (records.reverse.filter accepts) size).Shows records matching
      size := by
  have haccepts : accepts = fun r => decide (matching r) := by
    funext r
    rw [Bool.eq_iff_iff, h, decide_eq_true_iff]
  subst haccepts
  constructor
  · cases size <;> simp [Page.ofList]
  · simp [Page.ofList, List.countP_eq_length_filter]

/-- The fields that are given are those of the version. -/
def PipelineFilter.Matches (f : PipelineFilter) (v : PipelineVersion) : Prop :=
  (∀ name ∈ f.name, v.name = name) ∧ ∀ hash ∈ f.versionHash, v.versionHash = hash

instance (f : PipelineFilter) : DecidablePred f.Matches := fun v =>
  inferInstanceAs (Decidable ((∀ name ∈ f.name, v.name = name)
    ∧ ∀ hash ∈ f.versionHash, v.versionHash = hash))

/-- The fields that are given are those of the build. -/
def BuildFilter.Matches (f : BuildFilter) (b : Build) : Prop :=
  (∀ stack ∈ f.stack, b.stack = stack) ∧ ∀ checksum ∈ f.checksum, b.checksum = checksum

instance (f : BuildFilter) : DecidablePred f.Matches := fun b =>
  inferInstanceAs (Decidable ((∀ stack ∈ f.stack, b.stack = stack)
    ∧ ∀ checksum ∈ f.checksum, b.checksum = checksum))

theorem PipelineFilter.accepts_iff {f : PipelineFilter} {v : PipelineVersion} :
    f.accepts v = true ↔ f.Matches v := by
  simp [accepts, Matches, Option.all_eq_true]

theorem BuildFilter.accepts_iff {f : BuildFilter} {b : Build} :
    f.accepts b = true ↔ f.Matches b := by
  simp [accepts, Matches, Option.all_eq_true]

namespace Store

theorem shows_listPipelines (s : Store) (f : PipelineFilter) :
    (s.listPipelines f).1.Shows s.pipelines (fun r => f.Matches r.body) f.size :=
  Page.shows_ofList (fun _ => PipelineFilter.accepts_iff) f.size

theorem shows_listBuilds (s : Store) (f : BuildFilter) :
    (s.listBuilds f).Shows s.builds (fun r => f.Matches r.body) none :=
  Page.shows_ofList (fun _ => BuildFilter.accepts_iff) none

/-! ## Requests -/

/-- The store after a request. -/
def perform (s : Store) : StoreRequest → Store
  | .createPipeline stamp version => (s.createPipeline stamp version).2
  | .createSchedule stamp entry => (s.createSchedule stamp entry).2
  | .createBuild stamp build => (s.createBuild stamp build).2
  | .createDeployment stamp entry => (s.createDeployment stamp entry).2
  | .listPipelines filter => (s.listPipelines filter).2
  | .listBuilds _ => s

/-- The store after several requests, one after the other. -/
def performAll (s : Store) (requests : List StoreRequest) : Store := requests.foldl perform s

/-- The version has the name and the number of one that is stored. -/
def Taken (s : Store) (v : PipelineVersion) : Prop :=
  ∃ r ∈ s.pipelines, r.body.name = v.name ∧ r.body.version = v.version

/-- The records of a store are those of another, in the same order, with more of them after. -/
structure Continues (t s : Store) : Prop where
  pipelines : s.pipelines <+: t.pipelines
  schedules : s.schedules <+: t.schedules
  builds : s.builds <+: t.builds
  deployments : s.deployments <+: t.deployments

/-- No two versions share name and number. -/
def Distinct (s : Store) : Prop :=
  s.pipelines.Pairwise fun a b => ¬ (a.body.name = b.body.name ∧ a.body.version = b.body.version)

variable {s t u : Store}

theorem Continues.refl (s : Store) : s.Continues s := by
  constructor <;> exact List.prefix_rfl

theorem Continues.trans (h : t.Continues s) (h' : u.Continues t) : u.Continues s where
  pipelines := h.pipelines.trans h'.pipelines
  schedules := h.schedules.trans h'.schedules
  builds := h.builds.trans h'.builds
  deployments := h.deployments.trans h'.deployments

theorem hasVersion_iff_taken {v : PipelineVersion} :
    s.hasVersion v.name v.version = true ↔ s.Taken v := by
  simp [hasVersion, Taken]

instance (s : Store) (v : PipelineVersion) : Decidable (s.Taken v) :=
  decidable_of_iff _ hasVersion_iff_taken

/-- A version whose number is taken is refused, and nothing happens but that the request is
counted. -/
theorem createPipeline_eq_of_taken {v : PipelineVersion} (h : s.Taken v) (stamp : Stamp) :
    ∃ calls, s.createPipeline stamp v
      = (.error (.conflict "Pipeline" (v.name ++ ":" ++ v.version)), { s with calls }) :=
  ⟨_, if_pos (hasVersion_iff_taken.2 h)⟩

theorem createPipeline_eq_of_free {v : PipelineVersion} (h : ¬ s.Taken v) (stamp : Stamp) :
    ∃ calls, s.createPipeline stamp v
      = (.ok ⟨stamp, v⟩, { s with calls, pipelines := s.pipelines ++ [⟨stamp, v⟩] }) :=
  ⟨_, if_neg (mt hasVersion_iff_taken.1 h)⟩

theorem createPipeline_eq_error_iff {v : PipelineVersion} {stamp : Stamp} :
    (∃ cause, (s.createPipeline stamp v).1 = .error cause) ↔ s.Taken v := by
  by_cases h : s.Taken v
  · obtain ⟨calls, hrefused⟩ := createPipeline_eq_of_taken h stamp
    simp [hrefused, h]
  · obtain ⟨calls, hcreated⟩ := createPipeline_eq_of_free h stamp
    simp [hcreated, h]

/-- A request adds at most one record, at the end. -/
theorem continues_perform (s : Store) (request : StoreRequest) :
    (s.perform request).Continues s := by
  cases request with
  | createPipeline stamp v =>
    by_cases h : s.Taken v
    · obtain ⟨calls, hrefused⟩ := createPipeline_eq_of_taken h stamp
      rw [perform, hrefused]
      exact { Continues.refl s with }
    · obtain ⟨calls, hcreated⟩ := createPipeline_eq_of_free h stamp
      rw [perform, hcreated]
      exact { Continues.refl s with pipelines := List.prefix_append _ _ }
  | createSchedule => exact { Continues.refl s with schedules := List.prefix_append _ _ }
  | createBuild => exact { Continues.refl s with builds := List.prefix_append _ _ }
  | createDeployment => exact { Continues.refl s with deployments := List.prefix_append _ _ }
  | listPipelines => exact { Continues.refl s with }
  | listBuilds => exact .refl s

theorem continues_performAll (s : Store) (requests : List StoreRequest) :
    (s.performAll requests).Continues s := by
  induction requests generalizing s with
  | nil => exact .refl s
  | cons request requests ih => exact (s.continues_perform request).trans (ih (s.perform request))

theorem Distinct.perform (h : s.Distinct) (request : StoreRequest) :
    (s.perform request).Distinct := by
  cases request with
  | createPipeline stamp v =>
    by_cases htaken : s.Taken v
    · obtain ⟨calls, hrefused⟩ := createPipeline_eq_of_taken htaken stamp
      rw [Store.perform, hrefused]
      exact h
    · obtain ⟨calls, hcreated⟩ := createPipeline_eq_of_free htaken stamp
      rw [Store.perform, hcreated]
      refine List.pairwise_append.2 ⟨h, List.pairwise_singleton _ _, ?_⟩
      intro r hr new hnew hsame
      rw [List.mem_singleton.1 hnew] at hsame
      exact htaken ⟨r, hr, hsame⟩
  | createSchedule | createBuild | createDeployment | listPipelines | listBuilds => exact h

theorem Distinct.performAll (h : s.Distinct) (requests : List StoreRequest) :
    (s.performAll requests).Distinct := by
  induction requests generalizing s with
  | nil => exact h
  | cons request requests ih => exact ih (h.perform request)

/-- A new workspace has no versions. -/
theorem pipelines_ofEnvironment (e : Environment) (ids : Supply) :
    (ofEnvironment e ids).1.pipelines = [] := by
  rfl

/-- However a store of a new workspace was used, no two versions share name and number, and its
records stay where they are whatever is asked of it later. A version is refused exactly if its name
and number are taken. What is created has the stamp and is added after all others of its kind.
Beyond that no request changes anything but the number of requests. Listings show the records with
the fields that the filter asks for, the newest first, up to the size that it asks for, and tell how
many there are. -/
theorem kept_and_listed (e : Environment) (ids : Supply) (earlier later : List StoreRequest) :
    let s := (ofEnvironment e ids).1.performAll earlier
    s.Distinct
    ∧ (s.performAll later).Continues s
    ∧ (∀ stamp v, ((∃ cause, (s.createPipeline stamp v).1 = .error cause) ↔ s.Taken v)
        ∧ (s.Taken v → ∃ calls, (s.createPipeline stamp v).2 = { s with calls })
        ∧ (¬ s.Taken v → ∃ calls, s.createPipeline stamp v
          = (.ok ⟨stamp, v⟩, { s with calls, pipelines := s.pipelines ++ [⟨stamp, v⟩] })))
    ∧ (∀ stamp entry, ∃ calls, s.createSchedule stamp entry
        = (⟨stamp, entry⟩, { s with calls, schedules := s.schedules ++ [⟨stamp, entry⟩] }))
    ∧ (∀ stamp build, ∃ calls, s.createBuild stamp build
        = (⟨stamp, build⟩, { s with calls, builds := s.builds ++ [⟨stamp, build⟩] }))
    ∧ (∀ stamp entry, ∃ calls, s.createDeployment stamp entry
        = (⟨stamp, entry⟩, { s with calls, deployments := s.deployments ++ [⟨stamp, entry⟩] }))
    ∧ (∀ f, (s.listPipelines f).1.Shows s.pipelines (fun r => f.Matches r.body) f.size
        ∧ ∃ calls, (s.listPipelines f).2 = { s with calls })
    ∧ ∀ f, (s.listBuilds f).Shows s.builds (fun r => f.Matches r.body) none := by
  intro s
  have hstart : (ofEnvironment e ids).1.Distinct := by
    rw [Distinct, pipelines_ofEnvironment]
    exact .nil
  refine ⟨hstart.performAll earlier, s.continues_performAll later, fun stamp v => ?_,
    fun _ _ => ⟨_, rfl⟩, fun _ _ => ⟨_, rfl⟩, fun _ _ => ⟨_, rfl⟩,
    fun f => ⟨s.shows_listPipelines f, _, rfl⟩, s.shows_listBuilds⟩
  refine ⟨createPipeline_eq_error_iff, fun htaken => ?_,
    fun hfree => createPipeline_eq_of_free hfree stamp⟩
  obtain ⟨calls, hrefused⟩ := createPipeline_eq_of_taken htaken stamp
  exact ⟨calls, congrArg Prod.snd hrefused⟩

end Store

namespace Sample

/-- The first version of a pipeline without steps. -/
def firstVersion : PipelineVersion where
  name := "training"
  version := "1"
  versionHash := "a"
  spec := { version := Spec.currentVersion, steps := [] }
  user := .ofNat 0
  workspace := .ofNat 1

def firstStamp : Stamp := { id := .ofNat 7, created := { seconds := 0 } }

/-- A store that has this version. -/
def firstStore : Store :=
  (Store.ofEnvironment {} { sequence := Uuid.ofNat }).1.performAll
    [.createPipeline firstStamp firstVersion]

/-- A second version under the first number is refused, and one without number is added. -/
theorem kept_and_listed_second : firstStore.Taken { firstVersion with versionHash := "b" }
    ∧ (∃ calls, (firstStore.createPipeline firstStamp
        { firstVersion with versionHash := "b" }).2 = { firstStore with calls })
    ∧ ¬ firstStore.Taken { firstVersion with version := PipelineVersion.unversioned }
    ∧ (firstStore.createPipeline firstStamp
        { firstVersion with version := PipelineVersion.unversioned }).2.pipelines
      = [⟨firstStamp, firstVersion⟩,
        ⟨firstStamp, { firstVersion with version := PipelineVersion.unversioned }⟩] := by
  have htaken : firstStore.Taken { firstVersion with versionHash := "b" } := by decide
  have hfree : ¬ firstStore.Taken
      { firstVersion with version := PipelineVersion.unversioned } := by decide
  obtain ⟨-, -, hcreate, -⟩ := Store.kept_and_listed {} { sequence := Uuid.ofNat }
    [.createPipeline firstStamp firstVersion] []
  obtain ⟨-, hrefused, -⟩ := hcreate firstStamp { firstVersion with versionHash := "b" }
  obtain ⟨-, -, hadded⟩ := hcreate firstStamp
    { firstVersion with version := PipelineVersion.unversioned }
  obtain ⟨calls, hcreated⟩ := hadded hfree
  exact ⟨htaken, hrefused htaken, hfree, congrArg (·.2.pipelines) hcreated⟩

end Sample

end Pipework
