import Pipework.Proofs.Dispatch.Requests

/-!
# The stages of a run

Once it is compiled, a run goes through seven stages, each of which is one action of the
coordinator. `Coordinator.Advance` lists what a run can do at each stage, and
`Coordinator.moves_advance` says that it does one of these things. A run that fails at a stage does
not come to the next one: dispatching a compiled pipeline is a `Coordinator.Trace` from the first
stage on.
-/

namespace Pipework

namespace Effect

variable {α β : Type}

theorem bind_of_ok {x : Effect α} {f : α → Effect β} {w w' : World} {a : α}
    (h : x w = (.ok a, w')) : (x >>= f) w = f a w' := by
  simp only [bind, h]

theorem bind_of_error {x : Effect α} {f : α → Effect β} {w w' : World} {e : Error}
    (h : x w = (.error e, w')) : (x >>= f) w = (.error e, w') := by
  simp only [bind, h]

theorem map_of_ok {x : Effect α} {f : α → β} {w w' : World} {a : α} (h : x w = (.ok a, w')) :
    (f <$> x) w = (.ok (f a), w') := bind_of_ok h

theorem map_of_error {x : Effect α} {f : α → β} {w w' : World} {e : Error}
    (h : x w = (.error e, w')) : (f <$> x) w = (.error e, w') := bind_of_error h

theorem map_eq (x : Effect α) (f : α → β) (w : World) :
    (f <$> x) w = ((x w).1.map f, (x w).2) := by
  rcases h : x w with ⟨e | a, w'⟩
  · exact map_of_error h
  · exact map_of_ok h

/-- A relation of worlds that composes holds across a computation if it holds across its parts. -/
theorem rel_bind {R : World → World → Prop} (trans : ∀ {a b c}, R a b → R b c → R a c)
    {x : Effect α} {f : α → Effect β} {w : World} (hx : R w (x w).2)
    (hf : ∀ a, (x w).1 = .ok a → R (x w).2 (f a (x w).2).2) : R w ((x >>= f) w).2 := by
  rcases h : x w with ⟨e | a, w'⟩
  · rw [h] at hx
    rw [bind_of_error h]
    exact hx
  · rw [h] at hx hf
    rw [bind_of_ok h]
    exact trans hx (hf a rfl)

instance : LawfulMonad Effect := .mk' Effect
  (fun x => by
    funext w
    rcases h : x w with ⟨e | a, w'⟩
    · exact map_of_error h
    · exact map_of_ok h)
  (fun _ _ => rfl)
  (fun x f g => by
    funext w
    rcases h : x w with ⟨e | a, w'⟩
    · rw [bind_of_error h, bind_of_error (bind_of_error h)]
    · rw [bind_of_ok h]
      simp only [bind, h])

end Effect

/-- How far a run has come, and the records that it has made or found so far. -/
inductive RunStage where
  | register
  | schedule (pipeline : Option (Record PipelineVersion))
  | build (pipeline : Option (Record PipelineVersion)) (schedule : Option (Record ScheduleEntry))
  | record (pipeline : Option (Record PipelineVersion)) (schedule : Option (Record ScheduleEntry))
      (build : Option (Record Build))
  | prepare (records : RunRecords)
  | deploy (records : RunRecords)
  | report (records : RunRecords)
  | done (records : RunRecords)

def RunStage.phase : RunStage → RunPhase
  | .register => .registration
  | .schedule _ => .schedule
  | .build .. => .build
  | .record .. => .deployment
  | .prepare _ => .preparation
  | .deploy _ => .start
  | .report _ => .report
  | .done _ => .finished

namespace Coordinator

variable (c : Coordinator) (p : Pipeline) (d : Deployment) (spec : Spec)

/-- The deployment of a run as it is recorded, with all that it refers to. -/
def entryFor (pipeline : Option (Record PipelineVersion)) (schedule : Option (Record ScheduleEntry))
    (build : Option (Record Build)) (cacheKeys : CacheKey.Keys) (user workspace : Uuid) :
    DeploymentEntry :=
  { DeploymentEntry.ofDeployment d user workspace with
    pipeline := pipeline.map Record.id
    build := build.map Record.id
    schedule := schedule.map Record.id
    codeReference := c.checkout.bind (·.codeReference? c.sourceRoot)
    cacheKeys }

/-- The build that is created for a deployment. -/
def newBuild (pipeline : Option Uuid) (downloads : Bool) (s : Store) : Build where
  stack := c.stack.id
  pipeline
  checksum := BuildRequirement.checksum (c.stack.requirements d) downloads
  requirements := c.stack.requirements d
  downloadsCode := downloads
  user := s.user.id
  workspace := s.workspace.id

/-- Records the deployment of a run. -/
def createDeployment (pipeline : Option (Record PipelineVersion))
    (schedule : Option (Record ScheduleEntry)) (build : Option (Record Build)) :
    Effect (Record DeploymentEntry) := do
  let cacheKeys ← Effect.lift (cacheKeys p d)
  let user ← Effect.view (·.store.user.id)
  let workspace ← Effect.view (·.store.workspace.id)
  Effect.ofChange
    (·.createDeployment (c.entryFor d pipeline schedule build cacheKeys user workspace))

/-- The action of a run at a stage, which leads to the next stage. -/
def advance : RunStage → Effect RunStage
  | .register => .schedule <$> c.registerRun p spec
  | .schedule pipeline => .build pipeline <$> c.createSchedule d (pipeline.map Record.id)
  | .build pipeline schedule => .record pipeline schedule <$>
      c.resolveBuild d (pipeline.map Record.id) (c.downloadsCode d) (!p.options.preventBuildReuse)
  | .record pipeline schedule build =>
    (fun deployment => .prepare { pipeline, schedule, build, deployment }) <$>
      c.createDeployment p d pipeline schedule build
  | .prepare records => (fun _ => .deploy records) <$> c.prepareStack records.deployment
  | .deploy records => (fun _ => .report records) <$> c.deploy records.deployment
  | .report records =>
    (fun _ => .done records) <$> Effect.change (·.emit (c.runEvent d records.schedule.isSome))
  | .done records => pure (.done records)

/-- What a run can do at a stage: the requests that it makes, and the stage that it comes to or the
error that it ends with. -/
inductive Advance (w : World) : RunStage → List RunRequest → Except Error RunStage → Prop where
  | unlisted : Advance w .register [] (.ok (.schedule none))
  | registered {requests : List RunRequest} {record : Record PipelineVersion}
      (phases : ∀ r ∈ requests, r.phase = .registration)
      (stored : record ∈ (w.performAll requests).store.versions p.name)
      (hash : p.versionHash spec = .ok record.body.versionHash) :
      Advance w .register requests (.ok (.schedule record))
  | unregistered {requests : List RunRequest} {e : Error}
      (phases : ∀ r ∈ requests, r.phase = .registration) : Advance w .register requests (.error e)
  | unscheduled {pipeline} : Advance w (.schedule pipeline) [] (.ok (.build pipeline none))
  | scheduled {pipeline} {entry : ScheduleEntry} (stack : entry.stack = c.stack.id)
      (version : entry.pipeline = pipeline.map Record.id) :
      Advance w (.schedule pipeline) [.createSchedule entry]
        (.ok (.build pipeline (some (w.createSchedule entry).1)))
  | unbuilt {pipeline schedule} :
      Advance w (.build pipeline schedule) [] (.ok (.record pipeline schedule none))
  | reused {pipeline schedule} {build : Record Build} (stored : build ∈ w.store.builds)
      (stack : build.body.stack = c.stack.id) :
      Advance w (.build pipeline schedule) [] (.ok (.record pipeline schedule build))
  | built {pipeline schedule} {build : Build} (stack : build.stack = c.stack.id)
      (version : build.pipeline = pipeline.map Record.id) :
      Advance w (.build pipeline schedule) [.createBuild build]
        (.ok (.record pipeline schedule (some (w.createBuild build).1)))
  | unusable {pipeline schedule} {e : Error} :
      Advance w (.build pipeline schedule) [] (.error e)
  | recorded {pipeline schedule build} {keys : CacheKey.Keys} {user workspace : Uuid}
      (keyed : cacheKeys p d = .ok keys) :
      Advance w (.record pipeline schedule build)
        [.createDeployment (c.entryFor d pipeline schedule build keys user workspace)]
        (.ok (.prepare { pipeline, schedule, build, deployment :=
          (w.createDeployment (c.entryFor d pipeline schedule build keys user workspace)).1 }))
  | unkeyed {pipeline schedule build} {e : Error} :
      Advance w (.record pipeline schedule build) [] (.error e)
  | prepared {records} : Advance w (.prepare records) [.prepare c.stack records.deployment.id]
      (.ok (.deploy records))
  | unprepared {records} {e : Error} :
      Advance w (.prepare records) [.prepare c.stack records.deployment.id] (.error e)
  | deployed {records} : Advance w (.deploy records) [.deploy c.stack records.deployment.id]
      (.ok (.report records))
  | undeployed {records} {e : Error} :
      Advance w (.deploy records) [.deploy c.stack records.deployment.id] (.error e)
  | reported {records} : Advance w (.report records)
      [.report (c.runEvent d records.schedule.isSome)] (.ok (.done records))
  | finished {records} : Advance w (.done records) [] (.ok (.done records))

/-- Whether an outcome is one of the things that a run can do at a stage. -/
def Moves (w : World) (stage : RunStage) (outcome : Except Error RunStage × World) : Prop :=
  ∃ requests, c.Advance p d spec w stage requests outcome.1 ∧ outcome.2 = w.performAll requests

variable {c p d spec} {w : World}

theorem registerSpec_of_error {p : Pipeline} {spec : Spec} {e : Error}
    (h : p.versionHash spec = .error e) (w : World) : registerSpec p spec w = (.error e, w) := by
  have hlift : Effect.lift (p.versionHash spec) w = (.error e, w) := by rw [Effect.lift, h]
  exact Effect.bind_of_error hlift

theorem registerSpec_of_ok {p : Pipeline} {spec : Spec} {hash : String}
    (h : p.versionHash spec = .ok hash) (w : World) :
    registerSpec p spec w = Registration.register {
      name := p.name, versionHash := hash, spec, docstring := p.definition.docstring
      user := w.store.user.id, workspace := w.store.workspace.id } w := by
  have hlift : Effect.lift (p.versionHash spec) w = (.ok hash, w) := by rw [Effect.lift, h]
  exact Effect.bind_of_ok hlift

/-- Registering a compiled spec does no more than that, and gives a version with the hash of the
spec. -/
theorem exists_requests_registerSpec (p : Pipeline) (spec : Spec) (w : World) :
    ∃ requests, (∀ request ∈ requests, request.phase = .registration)
      ∧ (registerSpec p spec w).2 = w.performAll requests
      ∧ ∀ record, (registerSpec p spec w).1 = .ok record →
        record ∈ (w.performAll requests).store.versions p.name
        ∧ p.versionHash spec = .ok record.body.versionHash := by
  cases hhash : p.versionHash spec with
  | error e =>
    rw [registerSpec_of_error hhash]
    exact ⟨[], List.forall_mem_nil _, rfl, by rintro _ ⟨⟩⟩
  | ok hash =>
    rw [registerSpec_of_ok hhash]
    obtain ⟨requests, hphases, hworld, hanswer⟩ := Registration.exists_requests_register _ w
    refine ⟨requests, hphases, hworld, fun record hrecord => ?_⟩
    obtain ⟨hstored, hsame⟩ := hanswer record hrecord
    exact ⟨hstored, congrArg Except.ok hsame.symm⟩

theorem moves_register : c.Moves p d spec w .register (c.advance p d spec .register w) := by
  rw [advance, registerRun]
  split
  · obtain ⟨requests, hphases, hworld, hanswer⟩ := exists_requests_registerSpec p spec w
    refine ⟨requests, ?_⟩
    rcases hregister : registerSpec p spec w with ⟨e | record, w'⟩
    · rw [hregister] at hworld
      rw [Effect.map_of_error (Effect.map_of_error hregister)]
      exact ⟨.unregistered hphases, hworld⟩
    · rw [hregister] at hworld hanswer
      obtain ⟨hstored, hhash⟩ := hanswer record rfl
      rw [Effect.map_of_ok (Effect.map_of_ok hregister)]
      exact ⟨.registered hphases hstored hhash, hworld⟩
  · exact ⟨[], .unlisted, rfl⟩

theorem moves_schedule (pipeline : Option (Record PipelineVersion)) :
    c.Moves p d spec w (.schedule pipeline) (c.advance p d spec (.schedule pipeline) w) := by
  rw [advance, createSchedule]
  split
  · exact ⟨[], .unscheduled, rfl⟩
  · exact ⟨[.createSchedule _], .scheduled rfl rfl, rfl⟩

/-- A build is created for a deployment, or none is needed. -/
theorem createBuild_eq (pipeline : Option Uuid) (downloads : Bool) :
    c.createBuild d pipeline downloads w = (.ok none, w)
      ∨ c.createBuild d pipeline downloads w
        = (.ok (some (w.createBuild (c.newBuild d pipeline downloads w.store)).1),
          w.perform (.createBuild (c.newBuild d pipeline downloads w.store))) := by
  rw [createBuild]
  cases (c.stack.requirements d).isEmpty with
  | true => exact .inl rfl
  | false => exact .inr rfl

/-- A build that a run asks for by its id is one of those stored for the stack. -/
theorem explicitBuild_eq (id : Uuid) :
    (∃ e, c.explicitBuild d id w = (.error e, w))
      ∨ ∃ build ∈ w.store.builds, build.body.stack = c.stack.id ∧ build.id = id
        ∧ c.explicitBuild d id w = (.ok build, w) := by
  rw [explicitBuild, Store.getBuild]
  cases hfind : w.store.builds.find? (·.id = id) with
  | none => exact .inl ⟨_, rfl⟩
  | some build =>
    by_cases hstack : build.body.stack = c.stack.id
    · exact .inr ⟨build, List.mem_of_find?_eq_some hfind, hstack,
        by simpa using List.find?_some hfind, if_pos hstack⟩
    · exact .inl ⟨_, if_neg hstack⟩

/-- A build that is reused is one of those stored for the stack, and has the checksum of the
requirements. -/
theorem mem_of_reusableBuild? {downloads : Bool} {build : Record Build}
    (h : c.reusableBuild? d downloads w.store = some build) :
    build ∈ w.store.builds ∧ build.body.stack = c.stack.id
      ∧ build.body.checksum
        = BuildRequirement.checksum (c.stack.requirements d) downloads := by
  obtain ⟨hmem, haccepts⟩ := List.mem_filter.1 (List.mem_of_head? h)
  rw [BuildFilter.accepts, Bool.and_eq_true] at haccepts
  exact ⟨List.mem_reverse.1 hmem, eq_of_beq haccepts.1, eq_of_beq haccepts.2⟩

/-- Whether a build does for a deployment: it is the one asked for, or has the checksum of the
requirements. -/
def Serves (c : Coordinator) (d : Deployment) (downloads : Bool) (build : Record Build) : Prop :=
  d.build = some build.id
  ∨ build.body.checksum = BuildRequirement.checksum (c.stack.requirements d) downloads

/-- The build of a run is one that is stored for the stack or created for it, if there is one. -/
theorem resolveBuild_eq (pipeline : Option Uuid) (downloads reuse : Bool) :
    (∃ e, c.resolveBuild d pipeline downloads reuse w = (.error e, w))
      ∨ c.resolveBuild d pipeline downloads reuse w = (.ok none, w)
      ∨ (∃ build ∈ w.store.builds, build.body.stack = c.stack.id ∧ c.Serves d downloads build
        ∧ c.resolveBuild d pipeline downloads reuse w = (.ok (some build), w))
      ∨ c.resolveBuild d pipeline downloads reuse w
          = (.ok (some (w.createBuild (c.newBuild d pipeline downloads w.store)).1),
            w.perform (.createBuild (c.newBuild d pipeline downloads w.store))) := by
  have hcreate := c.createBuild_eq (d := d) (w := w) pipeline downloads
  rw [resolveBuild]
  cases hasked : d.build with
  | some id =>
    rcases c.explicitBuild_eq (d := d) (w := w) id with ⟨e, h⟩ | ⟨build, hmem, hstack, rfl, h⟩
    · exact .inl ⟨e, Effect.map_of_error h⟩
    · exact .inr (.inr (.inl ⟨build, hmem, hstack, .inl hasked, Effect.map_of_ok h⟩))
  | none =>
    cases reuse with
    | false => exact .inr (hcreate.imp_right .inr)
    | true =>
      cases (c.stack.requirements d).isEmpty with
      | true => exact .inr (.inl rfl)
      | false =>
        have hview : Effect.view (fun w => c.reusableBuild? d downloads w.store) w
          = (.ok (c.reusableBuild? d downloads w.store), w) := rfl
        simp only [Bool.false_eq_true, if_false, if_true]
        rw [Effect.bind_of_ok hview]
        cases hfound : c.reusableBuild? d downloads w.store with
        | some build =>
          obtain ⟨hmem, hstack, hchecksum⟩ := mem_of_reusableBuild? hfound
          exact .inr (.inr (.inl ⟨build, hmem, hstack, .inr hchecksum, rfl⟩))
        | none => exact .inr (hcreate.imp_right .inr)

theorem moves_build (pipeline : Option (Record PipelineVersion))
    (schedule : Option (Record ScheduleEntry)) :
    c.Moves p d spec w (.build pipeline schedule)
      (c.advance p d spec (.build pipeline schedule) w) := by
  rw [advance]
  rcases c.resolveBuild_eq (d := d) (w := w) (pipeline.map Record.id) (c.downloadsCode d)
    (!p.options.preventBuildReuse) with
    ⟨e, h⟩ | h | ⟨build, hmem, hstack, -, h⟩ | h
  · rw [Effect.map_of_error h]
    exact ⟨[], .unusable, rfl⟩
  · rw [Effect.map_of_ok h]
    exact ⟨[], .unbuilt, rfl⟩
  · rw [Effect.map_of_ok h]
    exact ⟨[], .reused hmem hstack, rfl⟩
  · rw [Effect.map_of_ok h]
    exact ⟨[.createBuild _], .built rfl rfl, rfl⟩

theorem moves_record (pipeline : Option (Record PipelineVersion))
    (schedule : Option (Record ScheduleEntry)) (build : Option (Record Build)) :
    c.Moves p d spec w (.record pipeline schedule build)
      (c.advance p d spec (.record pipeline schedule build) w) := by
  rw [advance, createDeployment]
  cases hkeys : cacheKeys p d with
  | error e => exact ⟨[], .unkeyed, rfl⟩
  | ok keys => exact ⟨[.createDeployment _], .recorded hkeys, rfl⟩

theorem prepareStack_eq (record : Record DeploymentEntry) :
    ∃ result, c.prepareStack record w = (result, w.perform (.prepare c.stack record.id)) := by
  simp only [prepareStack]
  split <;> exact ⟨_, rfl⟩

/-- Runs are suppressed only while the stack starts the deployment. -/
theorem deploy_eq (record : Record DeploymentEntry) :
    ∃ result, c.deploy record w = (result, w.perform (.deploy c.stack record.id)) := by
  simp only [deploy]
  split <;> exact ⟨_, rfl⟩

theorem moves_prepare (records : RunRecords) :
    c.Moves p d spec w (.prepare records) (c.advance p d spec (.prepare records) w) := by
  rw [advance]
  obtain ⟨e | _, h⟩ := c.prepareStack_eq (w := w) records.deployment
  · rw [Effect.map_of_error h]
    exact ⟨_, .unprepared, rfl⟩
  · rw [Effect.map_of_ok h]
    exact ⟨_, .prepared, rfl⟩

theorem moves_deploy (records : RunRecords) :
    c.Moves p d spec w (.deploy records) (c.advance p d spec (.deploy records) w) := by
  rw [advance]
  obtain ⟨e | _, h⟩ := c.deploy_eq (w := w) records.deployment
  · rw [Effect.map_of_error h]
    exact ⟨_, .undeployed, rfl⟩
  · rw [Effect.map_of_ok h]
    exact ⟨_, .deployed, rfl⟩

variable (c p d spec)

/-- A run does nothing else at a stage than what is listed. -/
theorem moves_advance (stage : RunStage) (w : World) :
    c.Moves p d spec w stage (c.advance p d spec stage w) := by
  cases stage with
  | register => exact moves_register
  | schedule pipeline => exact moves_schedule pipeline
  | build pipeline schedule => exact moves_build pipeline schedule
  | record pipeline schedule build => exact moves_record pipeline schedule build
  | prepare records => exact moves_prepare records
  | deploy records => exact moves_deploy records
  | report records => exact ⟨_, .reported, rfl⟩
  | done records => exact ⟨_, .finished, rfl⟩
variable {c p d spec}

/-! ## Traces -/

/-- A run from a stage on, with the requests that it makes stage by stage, and how it ends. -/
inductive Trace (c : Coordinator) (p : Pipeline) (d : Deployment) (spec : Spec) :
    RunStage → World → List RunRequest → Except Error RunRecords → Prop where
  | done (records : RunRecords) (w : World) : Trace c p d spec (.done records) w [] (.ok records)
  | failed {stage : RunStage} {w : World} {last : List RunRequest} {e : Error}
      (advance : c.Advance p d spec w stage last (.error e))
      (step : c.advance p d spec stage w = (.error e, w.performAll last)) :
      Trace c p d spec stage w last (.error e)
  | next {stage stage' : RunStage} {w : World} {own later : List RunRequest}
      {result : Except Error RunRecords} (advance : c.Advance p d spec w stage own (.ok stage'))
      (step : c.advance p d spec stage w = (.ok stage', w.performAll own))
      (rest : Trace c p d spec stage' (w.performAll own) later result) :
      Trace c p d spec stage w (own ++ later) result

/-- Whether an effect is a run from a stage on. -/
def Runs (c : Coordinator) (p : Pipeline) (d : Deployment) (spec : Spec) (stage : RunStage)
    (x : Effect RunRecords) : Prop :=
  ∀ w, ∃ requests, c.Trace p d spec stage w requests (x w).1 ∧ (x w).2 = w.performAll requests

/-- A run that acts at a stage and goes on from the next one. -/
theorem Runs.bind {α : Type} {stage : RunStage} {x : Effect α} {next : α → RunStage}
    {rest : α → Effect RunRecords} (hstep : c.advance p d spec stage = next <$> x)
    (hrest : ∀ a, c.Runs p d spec (next a) (rest a)) : c.Runs p d spec stage (x >>= rest) := by
  intro w
  obtain ⟨own, hadvance, hworld⟩ := c.moves_advance p d spec stage w
  rcases h : x w with ⟨e | a, w'⟩
  · have hfails : c.advance p d spec stage w = (.error e, w') := by
      rw [hstep, Effect.map_of_error h]
    rw [hfails] at hadvance hworld
    obtain rfl : w' = w.performAll own := hworld
    rw [Effect.bind_of_error h]
    exact ⟨own, .failed hadvance hfails, rfl⟩
  · have hleads : c.advance p d spec stage w = (.ok (next a), w') := by
      rw [hstep, Effect.map_of_ok h]
    rw [hleads] at hadvance hworld
    obtain rfl : w' = w.performAll own := hworld
    obtain ⟨later, htrace, hlater⟩ := hrest a (w.performAll own)
    rw [Effect.bind_of_ok h]
    exact ⟨own ++ later, .next hadvance hleads htrace, by rw [hlater, World.performAll_append]⟩

variable (c p d spec)

/-- A run from its first stage on. -/
def finish : Effect RunRecords := do
  let pipeline ← c.registerRun p spec
  let schedule ← c.createSchedule d (pipeline.map Record.id)
  let build ← c.resolveBuild d (pipeline.map Record.id) (c.downloadsCode d)
    (!p.options.preventBuildReuse)
  let deployment ← c.createDeployment p d pipeline schedule build
  c.prepareStack deployment
  c.deploy deployment
  Effect.change (·.emit (c.runEvent d schedule.isSome))
  return { pipeline, schedule, build, deployment }

theorem dispatch_eq : c.dispatch p = (do
    let (d, spec) ← c.compile p
    c.finish p d spec) := by
  simp only [dispatch, finish, createDeployment, entryFor, bind_assoc]

variable {c p d spec} in
/-- A run that nothing stops: what it records is made of what its stages have given. -/
theorem exists_dispatch {pipeline : Option (Record PipelineVersion)}
    {schedule : Option (Record ScheduleEntry)} {build : Option (Record Build)}
    {keys : CacheKey.Keys} {w w₁ w₂ w₃ : World}
    (hcompile : p.compile c.materializers c.stack = .ok (d, spec))
    (hregister : c.registerRun p spec w = (.ok pipeline, w₁))
    (hschedule : c.createSchedule d (pipeline.map Record.id) w₁ = (.ok schedule, w₂))
    (hbuild : c.resolveBuild d (pipeline.map Record.id) (c.downloadsCode d)
      (!p.options.preventBuildReuse) w₂ = (.ok build, w₃))
    (hkeys : cacheKeys p d = .ok keys) (hprepare : ∀ r, c.stack.refusePrepare? r = none)
    (hdeploy : ∀ r, c.stack.refuseDeploy? r = none) :
    ∃ records w', c.dispatch p w = (.ok records, w') ∧ records.pipeline = pipeline
      ∧ records.deployment.body = c.entryFor d pipeline schedule build keys w₃.store.user.id
        w₃.store.workspace.id
      ∧ w'.store.builds = w₃.store.builds
      ∧ w'.store.deployments = w₃.store.deployments ++ [records.deployment]
      ∧ w'.ids = w₃.ids.next.2 := by
  have hlift : Effect.lift (cacheKeys p d) w₃ = (.ok keys, w₃) := congrArg (·, w₃) hkeys
  have hcreate : c.createDeployment p d pipeline schedule build w₃ = _ := Effect.bind_of_ok hlift
  have hready : ∀ r w, c.prepareStack r w = (.ok (), w.perform (.prepare c.stack r.id)) := by
    intro r w
    simp only [prepareStack, hprepare]
    rfl
  have hstarted : ∀ r w, c.deploy r w = (.ok (), w.perform (.deploy c.stack r.id)) := by
    intro r w
    simp only [deploy, hdeploy]
    rfl
  have hcompiled : c.compile p w = (.ok (d, spec), w) := congrArg (·, w) hcompile
  rw [dispatch_eq, Effect.bind_of_ok hcompiled]
  dsimp only
  rw [finish, Effect.bind_of_ok hregister, Effect.bind_of_ok hschedule, Effect.bind_of_ok hbuild,
    Effect.bind_of_ok (hcreate.trans rfl), Effect.bind_of_ok (hready _ _),
    Effect.bind_of_ok (hstarted _ _)]
  exact ⟨_, _, rfl, rfl, rfl, rfl, rfl, rfl⟩

variable {c p d spec} in
/-- A build that nothing stops: what remains is to report it. -/
theorem exists_event_build {v : Record PipelineVersion} {build : Option (Record Build)}
    {w w₁ w₂ : World} (hcompile : p.compile c.materializers c.stack = .ok (d, spec))
    (hregister : registerSpec p spec w = (.ok v, w₁))
    (hcreate : c.createBuild d (some v.id) (c.downloadsCode d) w₁ = (.ok build, w₂)) :
    ∃ event, c.build p w = (.ok build, w₂.emit event) := by
  have hcompiled : c.compile p w = (.ok (d, spec), w) := congrArg (·, w) hcompile
  rw [Coordinator.build, Effect.bind_of_ok hcompiled]
  dsimp only
  rw [Effect.bind_of_ok hregister, Effect.bind_of_ok hcreate]
  exact ⟨_, rfl⟩

theorem runs_finish : c.Runs p d spec .register (c.finish p d spec) :=
  .bind rfl fun _ => .bind rfl fun _ => .bind rfl fun _ => .bind rfl fun _ => .bind rfl fun _ =>
    .bind rfl fun _ => .bind rfl fun _ w => ⟨[], .done _ w, rfl⟩

variable {c p d spec}

/-- Dispatching a pipeline that compiles is a run from the first stage on. -/
theorem exists_trace_dispatch (h : p.compile c.materializers c.stack = .ok (d, spec)) (w : World) :
    ∃ requests, c.Trace p d spec .register w requests (c.dispatch p w).1
      ∧ (c.dispatch p w).2 = w.performAll requests := by
  have hcompile : c.compile p w = (.ok (d, spec), w) := by rw [compile, Effect.lift, h]
  rw [dispatch_eq, Effect.bind_of_ok hcompile]
  exact c.runs_finish p d spec w

/-- A pipeline that does not compile is not dispatched. -/
theorem dispatch_of_error {e : Error} (h : p.compile c.materializers c.stack = .error e)
    (w : World) : c.dispatch p w = (.error e, w) := by
  have hcompile : c.compile p w = (.error e, w) := by rw [compile, Effect.lift, h]
  rw [dispatch_eq, Effect.bind_of_error hcompile]

end Coordinator

end Pipework
