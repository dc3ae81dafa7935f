import Pipework.Dispatch.Coordinator
import Pipework.Proofs.Registration.Race

/-!
# The requests of a run

All that a run does to the world it does by single requests to the store, to the stack and to those
who follow its events. Each request belongs to one phase of the run, and it only adds to what there
is (`World.Extends`). The requests of a registration are those of its own phase, whoever else writes
in between.
-/

namespace Pipework

/-- The phases of a run, in their order. -/
inductive RunPhase where
  | registration
  | schedule
  | build
  | deployment
  | preparation
  | start
  | report
  /-- There is nothing left to do. -/
  | finished
  deriving DecidableEq

def RunPhase.position : RunPhase → Nat
  | .registration => 0
  | .schedule => 1
  | .build => 2
  | .deployment => 3
  | .preparation => 4
  | .start => 5
  | .report => 6
  | .finished => 7

/-- A request that a run makes. -/
inductive RunRequest where
  | lookUp (filter : PipelineFilter)
  /-- Creates a version and reports it, if its number is free. -/
  | createVersion (version : PipelineVersion)
  | createSchedule (entry : ScheduleEntry)
  | createBuild (build : Build)
  | createDeployment (entry : DeploymentEntry)
  | prepare (stack : Stack) (deployment : Uuid)
  | deploy (stack : Stack) (deployment : Uuid)
  | report (event : Event)

namespace RunRequest

def phase : RunRequest → RunPhase
  | .lookUp _ | .createVersion _ => .registration
  | .createSchedule _ => .schedule
  | .createBuild _ => .build
  | .createDeployment _ => .deployment
  | .prepare .. => .preparation
  | .deploy .. => .start
  | .report _ => .report

end RunRequest

/-- The report of a new version. -/
def Registration.event (record : Record PipelineVersion) : Event where
  type := Event.registered
  data := Json.object (Json.member "pipeline" record.body.name
    ++ Json.member "version" record.body.version)

namespace World

/-- The world after a request. A deployment is started while runs are suppressed. -/
def perform (w : World) : RunRequest → World
  | .lookUp filter => (w.listPipelines filter).2
  | .createVersion version => match w.createPipeline version with
    | (.ok record, w) => w.emit (Registration.event record)
    | (.error _, w) => w
  | .createSchedule entry => (w.createSchedule entry).2
  | .createBuild build => (w.createBuild build).2
  | .createDeployment entry => (w.createDeployment entry).2
  | .prepare stack deployment => w.logStackCall stack .prepare deployment
  | .deploy stack deployment => { w with stackCalls := w.stackCalls ++
      [{ stack := stack.instanceNumber, request := .deploy, deployment, suppressed := true }] }
  | .report event => w.emit event

/-- The world after several requests, one after the other. -/
def performAll (w : World) (requests : List RunRequest) : World := requests.foldl perform w

theorem performAll_cons (w : World) (r : RunRequest) (requests : List RunRequest) :
    w.performAll (r :: requests) = (w.perform r).performAll requests := rfl

theorem performAll_append (w : World) (a b : List RunRequest) :
    w.performAll (a ++ b) = (w.performAll a).performAll b := List.foldl_append

theorem perform_createVersion_of_ok {w w' : World} {v : PipelineVersion}
    {record : Record PipelineVersion} (h : w.createPipeline v = (.ok record, w')) :
    w.perform (.createVersion v) = w'.emit (Registration.event record) := by
  rw [perform, h]

theorem perform_createVersion_of_error {w w' : World} {v : PipelineVersion} {cause : StoreError}
    (h : w.createPipeline v = (.error cause, w')) : w.perform (.createVersion v) = w' := by
  rw [perform, h]

/-- Whether a later world has all that an earlier one had, with more records, events and requests to
stacks after it, and is otherwise the same. -/
structure Extends (w w' : World) : Prop where
  pipelines : w.store.pipelines <+: w'.store.pipelines
  schedules : w.store.schedules <+: w'.store.schedules
  builds : w.store.builds <+: w'.store.builds
  deployments : w.store.deployments <+: w'.store.deployments
  events : w.events <+: w'.events
  stackCalls : w.stackCalls <+: w'.stackCalls
  user : w'.store.user = w.store.user
  workspace : w'.store.workspace = w.store.workspace
  stackModels : w'.store.stackModels = w.store.stackModels
  defaultStack : w'.store.defaultStack = w.store.defaultStack
  clock : w'.clock = w.clock
  slot : w'.slot = w.slot
  guard : w'.guard = w.guard

namespace Extends

theorem refl (w : World) : w.Extends w := by
  constructor
  all_goals first | exact List.prefix_rfl | rfl

theorem trans {w w' w'' : World} (h : w.Extends w') (h' : w'.Extends w'') : w.Extends w'' where
  pipelines := h.pipelines.trans h'.pipelines
  schedules := h.schedules.trans h'.schedules
  builds := h.builds.trans h'.builds
  deployments := h.deployments.trans h'.deployments
  events := h.events.trans h'.events
  stackCalls := h.stackCalls.trans h'.stackCalls
  user := h'.user.trans h.user
  workspace := h'.workspace.trans h.workspace
  stackModels := h'.stackModels.trans h.stackModels
  defaultStack := h'.defaultStack.trans h.defaultStack
  clock := h'.clock.trans h.clock
  slot := h'.slot.trans h.slot
  guard := h'.guard.trans h.guard

end Extends

/-- Without a rival a version is refused, or it is added at the end. -/
theorem addPipeline_eq (w : World) (v : PipelineVersion) :
    ∃ calls,
      (∃ cause, w.addPipeline v
        = (.error cause, { w.nextStamp.2 with store := { w.store with calls } }))
      ∨ w.addPipeline v = (.ok ⟨w.nextStamp.1, v⟩, { w.nextStamp.2 with
          store := { w.store with
            calls
            pipelines := w.store.pipelines ++ [⟨w.nextStamp.1, v⟩] } }) := by
  refine ⟨{ w.store.calls with createPipeline := w.store.calls.createPipeline + 1 }, ?_⟩
  have hadd : w.addPipeline v = ((w.store.createPipeline w.nextStamp.1 v).1,
      { w.nextStamp.2 with store := (w.store.createPipeline w.nextStamp.1 v).2 }) := rfl
  rw [hadd]
  by_cases htaken : w.store.hasVersion v.name v.version = true
  · have hcreate : w.store.createPipeline w.nextStamp.1 v = _ := if_pos htaken
    rw [hcreate]
    exact .inl ⟨_, rfl⟩
  · have hcreate : w.store.createPipeline w.nextStamp.1 v = _ := if_neg htaken
    rw [hcreate]
    exact .inr rfl

theorem extends_addPipeline (w : World) (v : PipelineVersion) : w.Extends (w.addPipeline v).2 := by
  obtain ⟨calls, ⟨cause, h⟩ | h⟩ := w.addPipeline_eq v
  · rw [h]
    exact { Extends.refl w with }
  · rw [h]
    exact { Extends.refl w with pipelines := List.prefix_append _ _ }

/-- A version that was created is the newest one, whatever a rival has created before. -/
theorem append_of_createPipeline {w w' : World} {v : PipelineVersion}
    {record : Record PipelineVersion} (h : w.createPipeline v = (.ok record, w')) :
    record.body = v ∧ ∃ earlier, w'.store.pipelines = earlier ++ [record] := by
  have hadd {w : World} (h : w.addPipeline v = (.ok record, w')) :
      record.body = v ∧ ∃ earlier, w'.store.pipelines = earlier ++ [record] := by
    obtain ⟨calls, ⟨cause, hrefused⟩ | hadded⟩ := w.addPipeline_eq v
    · cases hrefused.symm.trans h
    · cases hadded.symm.trans h
      exact ⟨rfl, _, rfl⟩
  rw [createPipeline] at h
  split at h
  · exact hadd h
  · split at h
    · exact hadd h
    · cases h

/-- Creating a version adds at most two versions one after the other, that of a rival and its
own. -/
theorem createPipeline_induction {P : World → Prop}
    (rivals : ∀ (w : World) (rivals : List (PipelineVersion → PipelineVersion)),
      P w → P { w with rivals })
    (add : ∀ (w : World) (v : PipelineVersion), P w → P (w.addPipeline v).2)
    {w : World} (v : PipelineVersion) (h : P w) : P (w.createPipeline v).2 := by
  rw [createPipeline]
  split
  · exact add w v h
  · rename_i rival left _
    have hrival := add { w with rivals := left } (rival v) (rivals w left h)
    split
    · rename_i w' heq
      rw [heq] at hrival
      exact add w' v hrival
    · rename_i w' heq
      rw [heq] at hrival
      exact hrival

theorem extends_createPipeline (w : World) (v : PipelineVersion) :
    w.Extends (w.createPipeline v).2 :=
  createPipeline_induction (P := w.Extends) (fun _ _ h => { h with })
    (fun w' v h => h.trans (w'.extends_addPipeline v)) v (.refl w)

theorem extends_emit (w : World) (event : Event) : w.Extends (w.emit event) :=
  { Extends.refl w with events := List.prefix_append _ _ }

/-- A request only adds to the world. -/
theorem extends_perform (w : World) (r : RunRequest) : w.Extends (w.perform r) := by
  cases r with
  | createVersion v =>
    have hextends := w.extends_createPipeline v
    rcases hcreate : w.createPipeline v with ⟨cause | record, w'⟩
    · rw [hcreate] at hextends
      rw [perform_createVersion_of_error hcreate]
      exact hextends
    · rw [hcreate] at hextends
      rw [perform_createVersion_of_ok hcreate]
      exact hextends.trans (w'.extends_emit _)
  | report event => exact w.extends_emit event
  | lookUp filter => exact { Extends.refl w with }
  | createSchedule entry => exact { Extends.refl w with schedules := List.prefix_append _ _ }
  | createBuild build => exact { Extends.refl w with builds := List.prefix_append _ _ }
  | createDeployment entry => exact { Extends.refl w with deployments := List.prefix_append _ _ }
  | prepare stack deployment => exact { Extends.refl w with stackCalls := List.prefix_append _ _ }
  | deploy stack deployment => exact { Extends.refl w with stackCalls := List.prefix_append _ _ }

theorem extends_performAll (w : World) (requests : List RunRequest) :
    w.Extends (w.performAll requests) := by
  induction requests generalizing w with
  | nil => exact .refl w
  | cons r requests ih => exact (w.extends_perform r).trans (ih (w.perform r))

end World

/-! ## Registration -/

namespace Registration

variable {r : Registration} {w w' : World}

/-- The world with a report of the version that a registration has created, if it has. -/
def reported (r : Registration) (w : World) : World :=
  match r.stage with
  | .created record => w.emit (event record)
  | _ => w

/-- Whether the record that a registration has found or created is stored, under its name and with
its hash. -/
def Answered (r : Registration) (s : Store) : Prop :=
  ∀ record, r.result? = some (.ok record) →
    record ∈ s.versions r.draft.name ∧ record.body.versionHash = r.draft.versionHash

theorem store_reported : (r.reported w).store = w.store := by
  unfold reported
  split <;> rfl

theorem draft_lost : r.lost.draft = r.draft := by
  unfold lost
  split <;> rfl

theorem reported_lost : r.lost.reported w = w := by
  unfold lost
  split <;> rfl

theorem result?_lost {record : Record PipelineVersion} : r.lost.result? ≠ some (.ok record) := by
  unfold lost
  split <;> nofun

/-- A look-up finds only what is stored. -/
theorem Request.answered {s t : Store} {r' : Registration} (request : Request s r r' [])
    (h : r.result? = none) (hsame : t.pipelines = s.pipelines) : r'.Answered t := by
  intro record hrecord
  cases request with
  | found record' stage stored hash =>
    cases hrecord
    rw [Store.versions, hsame]
    exact ⟨stored, hash⟩
  | taken => exact absurd hrecord result?_lost
  | ended stage => simp [h] at stage
  | missing | numbered | unreadable => cases hrecord

/-- A registration that has not ended makes one request, whoever else writes in between. -/
theorem step_of_unended (h : r.result? = none) :
    (r.step w).1.draft = r.draft ∧ (r.step w).1.Answered (r.step w).2.store
    ∧ ∃ request, request.phase = .registration
      ∧ w.perform request = (r.step w).1.reported (r.step w).2 := by
  cases hstage : r.stage with
  | found | created | failed => simp [result?, hstage] at h
  | findHash =>
    obtain ⟨request, hsame, -⟩ := request_findHash (w := w) hstage
    refine ⟨request.draft_eq, request.answered h hsame, .lookUp
      { name := r.draft.name, versionHash := r.draft.versionHash, size := some 1 }, rfl, ?_⟩
    simp only [step, hstage]
    split <;> rfl
  | findNumber =>
    obtain ⟨request, hsame, -⟩ := request_findNumber (w := w) hstage
    refine ⟨request.draft_eq, request.answered h hsame, .lookUp
      { name := r.draft.name, size := some 1 }, rfl, ?_⟩
    simp only [step, hstage]
    split <;> rfl
  | create number =>
    simp only [step, hstage]
    rcases hcreate : w.createPipeline (r.draft.numbered number) with ⟨cause | record, w'⟩
    · have hperform := World.perform_createVersion_of_error hcreate
      cases cause with
      | conflict =>
        exact ⟨draft_lost, fun _ hrecord => absurd hrecord result?_lost, _, rfl,
          hperform.trans (reported_lost).symm⟩
      | _ => exact ⟨rfl, by rintro _ ⟨⟩, _, rfl, hperform⟩
    · obtain ⟨hbody, earlier, hnewest⟩ := World.append_of_createPipeline hcreate
      refine ⟨rfl, fun _ hrecord => ?_, _, rfl, World.perform_createVersion_of_ok hcreate⟩
      cases hrecord
      rw [hbody]
      exact ⟨Store.mem_versions.2 ⟨by simp [hnewest], by rw [hbody]; rfl⟩, rfl⟩

theorem steps_of_ended (n : Nat) (h : r.result?.isSome) : steps n r w = (r, w) := by
  cases n with
  | zero => rfl
  | succ n => cases hstage : r.stage <;> simp_all [steps, result?]

theorem steps_succ (n : Nat) (h : r.result? = none) :
    steps (n + 1) r w = steps n (r.step w).1 (r.step w).2 := by
  cases hstage : r.stage <;> simp_all [steps, result?]

theorem reported_of_unended (h : r.result? = none) : r.reported w = w := by
  cases hstage : r.stage <;> simp_all [reported, result?]

/-- Until it ends a registration makes requests of its own phase only, and what it answers is
stored. -/
theorem exists_requests_steps (n : Nat) (r : Registration) (w : World) (h : r.result? = none) :
    (steps n r w).1.draft = r.draft ∧ (steps n r w).1.Answered (steps n r w).2.store
    ∧ ∃ requests, (∀ request ∈ requests, request.phase = .registration)
      ∧ w.performAll requests = (steps n r w).1.reported (steps n r w).2 := by
  induction n generalizing r w with
  | zero =>
    refine ⟨rfl, fun record hrecord => ?_, [], List.forall_mem_nil _,
      (reported_of_unended h).symm⟩
    cases h.symm.trans hrecord
  | succ n ih =>
    obtain ⟨hdraft, hanswered, request, hphase, hperform⟩ := step_of_unended (w := w) h
    rw [steps_succ n h]
    cases hnext : (r.step w).1.result? with
    | some result =>
      have hended : (r.step w).1.result?.isSome := by rw [hnext, Option.isSome_some]
      rw [steps_of_ended n hended]
      exact ⟨hdraft, hanswered, [request], by simpa using hphase, hperform⟩
    | none =>
      obtain ⟨hdraft', hanswered', requests, hphases, hperforms⟩ := ih _ (r.step w).2 hnext
      rw [reported_of_unended hnext] at hperform
      refine ⟨hdraft'.trans hdraft, hanswered', request :: requests, ?_, ?_⟩
      · exact List.forall_mem_cons.2 ⟨hphase, hphases⟩
      · rw [World.performAll_cons, hperform, hperforms]

/-- The answer of a registration, and what it leaves behind, from how it ended. -/
theorem register_of_steps {draft : VersionDraft} (h : steps requestBound { draft } w = (r, w')) :
    (register draft w).2 = r.reported w'
      ∧ ∀ record, (register draft w).1 = .ok record → r.result? = some (.ok record) := by
  rw [register, h]
  dsimp only
  cases hstage : r.stage with
  | found record | created record => simp [reported, result?, hstage, event]
  | failed | findHash | findNumber | create => simp [reported, hstage]

/-- Registering a version makes requests of its own phase only, and what it gives is stored. -/
theorem exists_requests_register (draft : VersionDraft) (w : World) :
    ∃ requests, (∀ request ∈ requests, request.phase = .registration)
      ∧ (register draft w).2 = w.performAll requests
      ∧ ∀ record, (register draft w).1 = .ok record →
        record ∈ (w.performAll requests).store.versions draft.name
        ∧ record.body.versionHash = draft.versionHash := by
  obtain ⟨hdraft, hanswered, requests, hphases, hperforms⟩ :=
    exists_requests_steps requestBound { draft } w rfl
  rcases hsteps : steps requestBound { draft } w with ⟨r, w'⟩
  rw [hsteps] at hdraft hanswered hperforms
  obtain ⟨hworld, hresult⟩ := register_of_steps hsteps
  refine ⟨requests, hphases, hworld.trans hperforms.symm, fun record hrecord => ?_⟩
  obtain ⟨hstored, hhash⟩ := hanswered record (hresult record hrecord)
  rw [hdraft] at hstored hhash
  refine ⟨?_, hhash⟩
  rwa [hperforms, store_reported]

end Registration

end Pipework
