import Pipework.Proofs.CacheKey.Deployment
import Pipework.Proofs.Dispatch.Stages
import Pipework.Proofs.Pipeline.Compilation
import Pipework.Proofs.Program.Isolation

/-!
# Referential integrity

The records of a store refer to each other by their ids. Records are never changed or removed, so it
is enough that the references of a new record lead to the right records when it is created
(`World.Adds`). A run passes on from stage to stage only records that are stored and fit
(`RunStage.Sound`), and refers to no others in what it creates.
-/

namespace Pipework

/-! ## References -/

/-- Whether a reference to a version leads to one, if there is a reference. -/
def Store.Knows (s : Store) (version : Option Uuid) : Prop :=
  ∀ id, version = some id → ∃ v ∈ s.pipelines, v.id = id

/-- Whether a pipeline that was compiled to a deployment and a spec is recorded like that, with
references to records that fit. -/
structure DeploymentEntry.Intact (e : DeploymentEntry) (p : Pipeline) (d : Deployment) (spec : Spec)
    (s : Store) : Prop where
  configuration : e.configuration = d.configuration
  steps : e.steps = d.steps
  stack : e.stack = d.stack
  /-- The version bears the name of the pipeline and the hash of the spec. -/
  version : ∀ id, e.pipeline = some id → ∃ v ∈ s.pipelines, v.id = id
    ∧ v.body.name = e.configuration.name ∧ p.versionHash spec = .ok v.body.versionHash
  /-- The build may be of another version, but not for another stack. -/
  build : ∀ id, e.build = some id → ∃ b ∈ s.builds, b.id = id ∧ b.body.stack = e.stack
  schedule : ∀ id, e.schedule = some id →
    ∃ r ∈ s.schedules, r.id = id ∧ r.body.stack = e.stack ∧ r.body.pipeline = e.pipeline
  cacheKeys : ∀ name, name ∈ e.cacheKeys.keys ↔ name ∈ e.steps.map (·.config.name)

/-- Whether a store still has everything of an earlier one that records refer to. -/
structure Store.Keeps (s s' : Store) : Prop where
  pipelines : s.pipelines ⊆ s'.pipelines
  schedules : s.schedules ⊆ s'.schedules
  builds : s.builds ⊆ s'.builds

variable {w w' w'' : World} {s s' s'' : Store}

theorem Store.Keeps.trans (h : s.Keeps s') (h' : s'.Keeps s'') : s.Keeps s'' where
  pipelines := List.Subset.trans h.pipelines h'.pipelines
  schedules := List.Subset.trans h.schedules h'.schedules
  builds := List.Subset.trans h.builds h'.builds

theorem World.Extends.keeps (h : w.Extends w') : w.store.Keeps w'.store where
  pipelines := h.pipelines.subset
  schedules := h.schedules.subset
  builds := h.builds.subset

theorem Store.Knows.mono {version : Option Uuid} (h : s.Knows version) (hs : s.Keeps s') :
    s'.Knows version := fun id hid => by
  obtain ⟨v, hv, heq⟩ := h id hid
  exact ⟨v, hs.pipelines hv, heq⟩

theorem DeploymentEntry.Intact.mono {e : DeploymentEntry} {p : Pipeline} {d : Deployment}
    {spec : Spec} (h : e.Intact p d spec s) (hs : s.Keeps s') : e.Intact p d spec s' where
  configuration := h.configuration
  steps := h.steps
  stack := h.stack
  version id hid := by
    obtain ⟨v, hv, hfits⟩ := h.version id hid
    exact ⟨v, hs.pipelines hv, hfits⟩
  build id hid := by
    obtain ⟨b, hb, hfits⟩ := h.build id hid
    exact ⟨b, hs.builds hb, hfits⟩
  schedule id hid := by
    obtain ⟨r, hr, hfits⟩ := h.schedule id hid
    exact ⟨r, hs.schedules hr, hfits⟩
  cacheKeys := h.cacheKeys

/-! ## Identifiers of records -/

/-- A supply that counts is fresh until it runs out. -/
theorem Supply.fresh_ofNat {used : Nat} (h : used ≤ Nat.pow 2 128) :
    Supply.Fresh { sequence := Uuid.ofNat, used } := by
  intro i hi j hj heq
  have hvalue : i % Nat.pow 2 128 = j % Nat.pow 2 128 := congrArg Uuid.value heq
  rwa [Nat.mod_eq_of_lt (Nat.lt_of_lt_of_le hi h),
    Nat.mod_eq_of_lt (Nat.lt_of_lt_of_le hj h)] at hvalue

namespace Record

theorem perm_map_id_snoc {α : Type} (records : List (Record α)) (r : Record α) :
    ((records ++ [r]).map id).Perm (r.id :: records.map id) := by
  rw [List.map_append]
  exact List.perm_append_singleton _ _

theorem perm_append_cons {a : Uuid} {xs ys zs : List Uuid} (h : ys.Perm (a :: zs)) :
    (xs ++ ys).Perm (a :: (xs ++ zs)) := (h.append_left xs).trans List.perm_middle

end Record

/-- The ids of all records. -/
def Store.recordIds (s : Store) : List Uuid :=
  s.pipelines.map Record.id ++ (s.schedules.map Record.id
    ++ (s.builds.map Record.id ++ s.deployments.map Record.id))

/-- Whether each record has taken an identifier of its own from the supply. -/
def World.Stamped (w : World) : Prop :=
  ∃ taken : List Nat, taken.Nodup ∧ (∀ n ∈ taken, n < w.ids.used)
    ∧ w.store.recordIds.Perm (taken.map w.ids.sequence)

namespace World.Stamped

/-- Where no identifier has been given out twice, no two records share one. -/
theorem nodup (h : w.Stamped) (fresh : w.ids.Fresh) : w.store.recordIds.Nodup := by
  obtain ⟨taken, hnodup, hbound, hperm⟩ := h
  refine hperm.nodup_iff.2 (List.Nodup.map_on (fun i hi j hj => ?_) hnodup)
  exact fresh i (hbound i hi) j (hbound j hj)

theorem after {n : Nat} (h : w.Stamped) (hids : w'.ids = w.ids.after n)
    (hrecords : w'.store.recordIds = w.store.recordIds) : w'.Stamped := by
  obtain ⟨taken, hnodup, hbound, hperm⟩ := h
  refine ⟨taken, hnodup, fun i hi => ?_, ?_⟩
  · rw [hids]
    exact Nat.lt_add_right n (hbound i hi)
  · rw [hids, hrecords]
    exact hperm

/-- A new record takes the next identifier. -/
theorem add (h : w.Stamped) (hids : w'.ids = w.ids.next.2)
    (hrecords : w'.store.recordIds.Perm (w.ids.next.1 :: w.store.recordIds)) : w'.Stamped := by
  obtain ⟨taken, hnodup, hbound, hperm⟩ := h
  refine ⟨w.ids.used :: taken, List.nodup_cons.2 ⟨fun hmem => ?_, hnodup⟩, ?_, ?_⟩
  · exact Nat.lt_irrefl _ (hbound _ hmem)
  · rw [hids]
    exact List.forall_mem_cons.2
      ⟨Nat.lt_succ_self _, fun i hi => Nat.lt_succ_of_lt (hbound i hi)⟩
  · rw [hids]
    exact hrecords.trans (hperm.cons _)

end World.Stamped

/-! ## New records -/

/-- The deployments that are made of pipelines, with their specs. -/
abbrev Deploys := Pipeline → Deployment → Spec → Prop

variable {deploys : Deploys}

/-- Whether all that a later world has more are records with identifiers of their own whose
references lead to records that fit, where new deployments are some of those that are made. -/
structure World.Adds (deploys : Deploys) (w w' : World) : Prop where
  keeps : w.store.Keeps w'.store
  schedules : ∀ r ∈ w'.store.schedules, r ∈ w.store.schedules ∨ w'.store.Knows r.body.pipeline
  builds : ∀ b ∈ w'.store.builds, b ∈ w.store.builds ∨ w'.store.Knows b.body.pipeline
  deployments : ∀ r ∈ w'.store.deployments, r ∈ w.store.deployments
    ∨ ∃ p d spec, deploys p d spec ∧ r.body.Intact p d spec w'.store
  stamped : w.Stamped → w'.Stamped

/-- Whether a world has the same records as an earlier one, and at most more identifiers taken. -/
structure World.SameRecords (w w' : World) : Prop where
  pipelines : w'.store.pipelines = w.store.pipelines
  schedules : w'.store.schedules = w.store.schedules
  builds : w'.store.builds = w.store.builds
  deployments : w'.store.deployments = w.store.deployments
  ids : ∃ n, w'.ids = w.ids.after n

namespace World.Adds

theorem of_same (h : w.SameRecords w') : w.Adds deploys w' where
  keeps := {
    pipelines := h.pipelines ▸ List.Subset.refl _
    schedules := h.schedules ▸ List.Subset.refl _
    builds := h.builds ▸ List.Subset.refl _ }
  schedules _ hr := .inl (h.schedules ▸ hr)
  builds _ hb := .inl (h.builds ▸ hb)
  deployments _ hr := .inl (h.deployments ▸ hr)
  stamped hstamped := by
    obtain ⟨n, hids⟩ := h.ids
    refine hstamped.after hids ?_
    rw [Store.recordIds, h.pipelines, h.schedules, h.builds, h.deployments, Store.recordIds]

theorem refl (w : World) : w.Adds deploys w := of_same ⟨rfl, rfl, rfl, rfl, 0, rfl⟩

theorem of_ids (w : World) (n : Nat) : w.Adds deploys { w with ids := w.ids.after n } :=
  of_same ⟨rfl, rfl, rfl, rfl, n, rfl⟩

theorem trans (h : w.Adds deploys w') (h' : w'.Adds deploys w'') : w.Adds deploys w'' where
  keeps := h.keeps.trans h'.keeps
  schedules r hr := by
    rcases h'.schedules r hr with hr | hknows
    · exact (h.schedules r hr).imp_right (·.mono h'.keeps)
    · exact .inr hknows
  builds b hb := by
    rcases h'.builds b hb with hb | hknows
    · exact (h.builds b hb).imp_right (·.mono h'.keeps)
    · exact .inr hknows
  deployments r hr := by
    rcases h'.deployments r hr with hr | hnew
    · refine (h.deployments r hr).imp_right ?_
      rintro ⟨p, d, spec, hdeploys, hintact⟩
      exact ⟨p, d, spec, hdeploys, hintact.mono h'.keeps⟩
    · exact .inr hnew
  stamped := h'.stamped ∘ h.stamped

/-- Something that gives a value, and what is done with it. -/
theorem bind {α β : Type} {x : Effect α} {f : α → Effect β} (hx : w.Adds deploys (x w).2)
    (hf : ∀ a, (x w).1 = .ok a → (x w).2.Adds deploys (f a (x w).2).2) :
    w.Adds deploys ((x >>= f) w).2 := Effect.rel_bind .trans hx hf

end World.Adds

/-- Whether a request is for a record whose references lead to records that fit. -/
def RunRequest.Sound (deploys : Deploys) (s : Store) : RunRequest → Prop
  | .createSchedule entry => s.Knows entry.pipeline
  | .createBuild build => s.Knows build.pipeline
  | .createDeployment entry => ∃ p d spec, deploys p d spec ∧ entry.Intact p d spec s
  | .lookUp _ | .createVersion _ | .prepare .. | .deploy .. | .report _ => True

namespace World

theorem adds_addPipeline (w : World) (v : PipelineVersion) :
    w.Adds deploys (w.addPipeline v).2 := by
  have hkeeps := (w.extends_addPipeline v).keeps
  obtain ⟨calls, ⟨cause, h⟩ | h⟩ := w.addPipeline_eq v
  · rw [h]
    exact .of_same ⟨rfl, rfl, rfl, rfl, 1, rfl⟩
  · rw [h] at hkeeps ⊢
    refine ⟨hkeeps, fun _ => .inl, fun _ => .inl, fun _ => .inl, fun hstamped => ?_⟩
    exact hstamped.add rfl ((Record.perm_map_id_snoc _ _).append_right _)

/-- Creating a version adds nothing but versions, whatever a rival does. -/
theorem adds_createPipeline (w : World) (v : PipelineVersion) :
    w.Adds deploys (w.createPipeline v).2 :=
  createPipeline_induction (P := w.Adds deploys)
    (fun _ _ h => h.trans (.of_same ⟨rfl, rfl, rfl, rfl, 0, rfl⟩))
    (fun w' v h => h.trans (w'.adds_addPipeline v)) v (.refl w)

/-- What a sound request adds refers to what is stored. -/
theorem adds_perform {r : RunRequest} (h : r.Sound deploys w.store) :
    w.Adds deploys (w.perform r) := by
  have hkeeps := (w.extends_perform r).keeps
  cases r with
  | lookUp | prepare | deploy | report => exact .of_same ⟨rfl, rfl, rfl, rfl, 0, rfl⟩
  | createVersion v =>
    have hadds : w.Adds deploys (w.createPipeline v).2 := w.adds_createPipeline v
    rcases hcreate : w.createPipeline v with ⟨cause | record, w'⟩
    · rw [hcreate] at hadds
      rw [perform_createVersion_of_error hcreate]
      exact hadds
    · rw [hcreate] at hadds
      rw [perform_createVersion_of_ok hcreate]
      exact hadds.trans (.of_same ⟨rfl, rfl, rfl, rfl, 0, rfl⟩)
  | createSchedule entry =>
    refine ⟨hkeeps, fun r hr => ?_, fun _ => .inl, fun _ => .inl, fun hstamped => ?_⟩
    · refine (List.mem_append.1 hr).imp_right fun hnew => ?_
      rw [List.mem_singleton.1 hnew]
      exact Store.Knows.mono h hkeeps
    · exact hstamped.add rfl
        (Record.perm_append_cons ((Record.perm_map_id_snoc _ _).append_right _))
  | createBuild build =>
    refine ⟨hkeeps, fun _ => .inl, fun b hb => ?_, fun _ => .inl, fun hstamped => ?_⟩
    · refine (List.mem_append.1 hb).imp_right fun hnew => ?_
      rw [List.mem_singleton.1 hnew]
      exact Store.Knows.mono h hkeeps
    · exact hstamped.add rfl (Record.perm_append_cons
        (Record.perm_append_cons ((Record.perm_map_id_snoc _ _).append_right _)))
  | createDeployment entry =>
    refine ⟨hkeeps, fun _ => .inl, fun _ => .inl, fun r hr => ?_, fun hstamped => ?_⟩
    · refine (List.mem_append.1 hr).imp_right fun hnew => ?_
      rw [List.mem_singleton.1 hnew]
      obtain ⟨p, d, spec, hdeploys, hintact⟩ := h
      exact ⟨p, d, spec, hdeploys, hintact.mono hkeeps⟩
    · exact hstamped.add rfl (Record.perm_append_cons
        (Record.perm_append_cons (Record.perm_append_cons (Record.perm_map_id_snoc _ _))))

theorem adds_single {r : RunRequest} (h : r.Sound deploys w.store) :
    w.Adds deploys (w.performAll [r]) := adds_perform h

/-- A registration adds nothing but versions. -/
theorem adds_performAll {requests : List RunRequest}
    (h : ∀ r ∈ requests, r.phase = .registration) : w.Adds deploys (w.performAll requests) := by
  induction requests generalizing w with
  | nil => exact .refl w
  | cons r requests ih =>
    obtain ⟨hr, hrequests⟩ := List.forall_mem_cons.1 h
    have hsound : r.Sound deploys w.store := by
      cases r <;> trivial
    exact (adds_perform hsound).trans (ih hrequests)

end World

/-! ## Runs -/

namespace Coordinator

/-- Whether the records that a run of a compiled pipeline refers to are stored and fit, as far as it
has them. -/
structure Carries (c : Coordinator) (p : Pipeline) (spec : Spec)
    (pipeline : Option (Record PipelineVersion)) (schedule : Option (Record ScheduleEntry))
    (build : Option (Record Build)) (s : Store) : Prop where
  version : ∀ v, pipeline = some v →
    v ∈ s.pipelines ∧ v.body.name = p.name ∧ p.versionHash spec = .ok v.body.versionHash
  schedule : ∀ r, schedule = some r →
    r ∈ s.schedules ∧ r.body.stack = c.stack.id ∧ r.body.pipeline = pipeline.map Record.id
  build : ∀ b, build = some b → b ∈ s.builds ∧ b.body.stack = c.stack.id

/-- Whether a run that is at a stage carries records that are stored and fit. After its deployment
is created it refers to no others. -/
def Sound (c : Coordinator) (p : Pipeline) (spec : Spec) (s : Store) : RunStage → Prop
  | .schedule pipeline => c.Carries p spec pipeline none none s
  | .build pipeline schedule => c.Carries p spec pipeline schedule none s
  | .record pipeline schedule build => c.Carries p spec pipeline schedule build s
  | .register | .prepare _ | .deploy _ | .report _ | .done _ => True

/-- Whether a run that comes out of a stage like this carries records that are stored and fit, if it
goes on. -/
def GoesOn (c : Coordinator) (p : Pipeline) (spec : Spec) (s : Store) :
    Except Error RunStage → Prop
  | .ok stage => c.Sound p spec s stage
  | .error _ => True

variable {c : Coordinator} {p : Pipeline} {d : Deployment} {spec : Spec}
  {pipeline : Option (Record PipelineVersion)} {schedule : Option (Record ScheduleEntry)}
  {build : Option (Record Build)}

namespace Carries

/-- A run that has just registered its pipeline, or does without. -/
theorem ofVersion {s : Store} (h : ∀ v, pipeline = some v →
    v ∈ s.pipelines ∧ v.body.name = p.name ∧ p.versionHash spec = .ok v.body.versionHash) :
    c.Carries p spec pipeline none none s where
  version := h
  schedule := by rintro _ ⟨⟩
  build := by rintro _ ⟨⟩

theorem withSchedule {s : Store} {r : Record ScheduleEntry}
    (h : c.Carries p spec pipeline schedule build s) (stored : r ∈ s.schedules)
    (stack : r.body.stack = c.stack.id) (version : r.body.pipeline = pipeline.map Record.id) :
    c.Carries p spec pipeline (some r) build s where
  version := h.version
  schedule := by
    rintro _ ⟨⟩
    exact ⟨stored, stack, version⟩
  build := h.build

theorem withBuild {s : Store} {b : Record Build} (h : c.Carries p spec pipeline schedule build s)
    (stored : b ∈ s.builds) (stack : b.body.stack = c.stack.id) :
    c.Carries p spec pipeline schedule (some b) s where
  version := h.version
  schedule := h.schedule
  build := by
    rintro _ ⟨⟩
    exact ⟨stored, stack⟩

theorem mono (h : c.Carries p spec pipeline schedule build s) (hs : s.Keeps s') :
    c.Carries p spec pipeline schedule build s' where
  version v hv := (h.version v hv).imp_left (hs.pipelines ·)
  schedule r hr := (h.schedule r hr).imp_left (hs.schedules ·)
  build b hb := (h.build b hb).imp_left (hs.builds ·)

theorem knows {s : Store} {version : Option Uuid}
    (h : c.Carries p spec pipeline schedule build s) (hversion : version = pipeline.map Record.id) :
    s.Knows version := fun id hid => by
  rw [hversion] at hid
  obtain ⟨v, hv, rfl⟩ := Option.map_eq_some_iff.1 hid
  exact ⟨v, (h.version v hv).1, rfl⟩

/-- The deployment that a run records refers to what the run carries. -/
theorem intact {s : Store} {keys : CacheKey.Keys} {user workspace : Uuid}
    (h : c.Carries p spec pipeline schedule build s) (hstack : d.stack = c.stack.id)
    (hname : d.configuration.name = p.name) (hkeys : cacheKeys p d = .ok keys) :
    (c.entryFor d pipeline schedule build keys user workspace).Intact p d spec s where
  configuration := rfl
  steps := rfl
  stack := rfl
  version id hid := by
    obtain ⟨v, hv, rfl⟩ := Option.map_eq_some_iff.1 hid
    obtain ⟨hstored, hsame, hhash⟩ := h.version v hv
    exact ⟨v, hstored, rfl, hsame.trans hname.symm, hhash⟩
  build id hid := by
    obtain ⟨b, hb, rfl⟩ := Option.map_eq_some_iff.1 hid
    obtain ⟨hstored, hsame⟩ := h.build b hb
    exact ⟨b, hstored, rfl, hsame.trans hstack.symm⟩
  schedule id hid := by
    obtain ⟨r, hr, rfl⟩ := Option.map_eq_some_iff.1 hid
    obtain ⟨hstored, hsame, hversion⟩ := h.schedule r hr
    exact ⟨r, hstored, rfl, hsame.trans hstack.symm, hversion⟩
  cacheKeys name := by
    obtain ⟨engine, hengine, hall⟩ := bind_eq_ok_iff.1 hkeys
    change name ∈ keys.keys ↔ name ∈ d.steps.map (·.config.name)
    rw [CacheKey.Engine.keys_of_allKeys hall, CacheKey.Engine.mem_keys_ofDeployment hengine]

end Carries

variable {stage : RunStage} {requests : List RunRequest} {outcome : Except Error RunStage}

/-- From a stage at which it carries records that fit, a run adds only records whose references fit,
and carries on with such records. -/
theorem Advance.adds (h : c.Advance p d spec w stage requests outcome)
    (hsound : c.Sound p spec w.store stage) (hdeploys : deploys p d spec)
    (hstack : d.stack = c.stack.id) (hname : d.configuration.name = p.name) :
    w.Adds deploys (w.performAll requests)
      ∧ c.GoesOn p spec (w.performAll requests).store outcome := by
  have hlast {α : Type} (xs : List α) (x : α) : x ∈ xs ++ [x] :=
    List.mem_append_right _ List.mem_cons_self
  cases h with
  | unlisted => exact ⟨.refl w, .ofVersion (by rintro _ ⟨⟩)⟩
  | registered phases stored hash =>
    refine ⟨World.adds_performAll phases, .ofVersion ?_⟩
    rintro _ ⟨⟩
    exact ⟨(Store.mem_versions.1 stored).1, (Store.mem_versions.1 stored).2, hash⟩
  | @scheduled pipeline entry stack version =>
    have hadds : w.Adds deploys (w.performAll [.createSchedule entry]) :=
      World.adds_single (hsound.knows version)
    exact ⟨hadds, (hsound.mono hadds.keeps).withSchedule (hlast _ _) stack version⟩
  | reused stored stack => exact ⟨.refl w, hsound.withBuild stored stack⟩
  | @built pipeline schedule build stack version =>
    have hadds : w.Adds deploys (w.performAll [.createBuild build]) :=
      World.adds_single (hsound.knows version)
    exact ⟨hadds, (hsound.mono hadds.keeps).withBuild (hlast _ _) stack⟩
  | recorded keyed =>
    exact ⟨World.adds_single ⟨p, d, spec, hdeploys, hsound.intact hstack hname keyed⟩, trivial⟩
  | unregistered phases => exact ⟨World.adds_performAll phases, trivial⟩
  | unscheduled | unbuilt => exact ⟨.refl w, hsound⟩
  | unusable | unkeyed | finished => exact ⟨.refl w, trivial⟩
  | prepared | unprepared | deployed | undeployed | reported =>
    exact ⟨World.adds_single trivial, trivial⟩

/-- A run from such a stage on adds only records whose references fit. -/
theorem Trace.adds {result : Except Error RunRecords}
    (h : c.Trace p d spec stage w requests result) (hsound : c.Sound p spec w.store stage)
    (hdeploys : deploys p d spec) (hstack : d.stack = c.stack.id)
    (hname : d.configuration.name = p.name) : w.Adds deploys (w.performAll requests) := by
  induction h with
  | done records w => exact .refl w
  | failed advance => exact (advance.adds hsound hdeploys hstack hname).1
  | next advance _ _ ih =>
    obtain ⟨hadds, hnext⟩ := advance.adds hsound hdeploys hstack hname
    rw [World.performAll_append]
    exact hadds.trans (ih hnext)

/-! ## Registering and building -/

/-- Registering a compiled spec adds nothing but versions, among them the one it gives. -/
theorem adds_registerSpec (p : Pipeline) (spec : Spec) (w : World) :
    w.Adds deploys (registerSpec p spec w).2
      ∧ ∀ v, (registerSpec p spec w).1 = .ok v →
        (registerSpec p spec w).2.store.Knows (some v.id) := by
  obtain ⟨requests, hphases, hworld, hanswer⟩ := exists_requests_registerSpec p spec w
  rw [hworld]
  refine ⟨World.adds_performAll hphases, fun v hv => ?_⟩
  rintro _ ⟨⟩
  exact ⟨v, (Store.mem_versions.1 (hanswer v hv).1).1, rfl⟩

theorem adds_register (c : Coordinator) (p : Pipeline) (w : World) :
    w.Adds deploys (c.register p w).2 :=
  .bind (.refl w) fun compiled _ => (adds_registerSpec p compiled.2 w).1

/-- A build that is created for a version that is stored. -/
theorem adds_createBuild (c : Coordinator) (d : Deployment) {version : Option Uuid}
    (downloads : Bool) (h : w.store.Knows version) :
    w.Adds deploys (c.createBuild d version downloads w).2 := by
  rcases c.createBuild_eq (d := d) (w := w) version downloads with hnone | hcreated
  · rw [hnone]
    exact .refl w
  · have hsound : RunRequest.Sound deploys w.store
        (.createBuild (c.newBuild d version downloads w.store)) := h
    rw [hcreated]
    exact World.adds_perform hsound

theorem adds_build (c : Coordinator) (p : Pipeline) (w : World) :
    w.Adds deploys (c.build p w).2 := by
  refine .bind (.refl w) fun compiled _ => ?_
  obtain ⟨hregister, hknows⟩ : w.Adds deploys _ ∧ _ := adds_registerSpec p compiled.2 w
  refine .bind hregister fun v hv => .bind (c.adds_createBuild _ _ (hknows v hv)) fun b _ => ?_
  exact .bind (.of_same ⟨rfl, rfl, rfl, rfl, 0, rfl⟩) fun _ _ => .refl _

end Coordinator

end Pipework
