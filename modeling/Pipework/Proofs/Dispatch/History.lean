import Pipework.Proofs.Dispatch.Integrity
import Pipework.Proofs.Dispatch.Progress
import Pipework.Proofs.Pipeline.Structure

/-!
# Histories

Any number of coordinators, with any stacks, register, build and run workflows on one store that was
empty at first. A `History` lists the calls; between two of them everything but the records may
change, among it who races with the next call. However each call ends, all references in the store
lead to records that fit (`History.store_intact`).
-/

namespace Pipework

variable {σ : Type}

/-! ## Calls -/

/-- Pipelines that can be built, and that are prepared or configured in any way afterwards. -/
inductive Pipeline.Built : Pipeline → Prop where
  | ofName (name : String) : Built (.ofName name)
  | withParameter {p : Pipeline} (h : p.Built) (name : String) (default : Option Json) :
      Built (p.withParameter name default)
  | withSource {p : Pipeline} (h : p.Built) (source : Source) : Built (p.withSource source)
  | withSourceCode {p : Pipeline} (h : p.Built) (sourceCode : String) :
      Built (p.withSourceCode sourceCode)
  | withDocstring {p : Pipeline} (h : p.Built) (docstring : String) :
      Built (p.withDocstring docstring)
  | withOptions {p : Pipeline} (h : p.Built) (options : RunOptions) : Built (p.withOptions options)
  | onFailure {p p' : Pipeline} {hook : Hook} (h : p.Built) (hp : p.onFailure hook = .ok p') :
      Built p'
  | onSuccess {p p' : Pipeline} {hook : Hook} (h : p.Built) (hp : p.onSuccess hook = .ok p') :
      Built p'
  | configure {p p' : Pipeline} {update : PipelineLayer} {mode : LayerMode} (h : p.Built)
      (hp : p.configure update mode = .ok p') : Built p'
  | prepare {σ : Type} {p : Pipeline} (h : p.Built) (run : Runner σ) (arguments : Dict Json)
      (s : Session σ) : Built (p.prepareBy run arguments s).2.1

namespace Pipeline

/-- Preparing a pipeline changes its graph and its arguments only. -/
theorem definition_prepareBy (p : Pipeline) (run : Runner σ) (arguments : Dict Json)
    (s : Session σ) : (p.prepareBy run arguments s).2.1.definition = p.definition
      ∧ (p.prepareBy run arguments s).2.1.configuration = p.configuration := by
  rw [prepareBy]
  split
  · exact ⟨rfl, rfl⟩
  · dsimp only
    cases p.definition.bind arguments with
    | error e => exact ⟨rfl, rfl⟩
    | ok bound =>
      dsimp only
      split
      · exact ⟨rfl, rfl⟩
      · split <;> exact ⟨rfl, rfl⟩

/-- The configuration of a pipeline bears its name. -/
theorem Built.name_eq {p : Pipeline} (h : p.Built) : p.configuration.name = p.name := by
  induction h with
  | ofName name => rfl
  | withParameter _ _ _ ih | withSource _ _ ih | withSourceCode _ _ ih | withDocstring _ _ ih
  | withOptions _ _ ih => exact ih
  | onFailure _ hp ih | onSuccess _ hp ih =>
    obtain ⟨_, -, rfl⟩ := map_eq_ok_iff.1 hp
    exact ih
  | configure _ hp ih =>
    rw [Pipeline.configure] at hp
    split at hp
    · obtain ⟨_, -, hp⟩ := bind_eq_ok_iff.1 hp
      cases hp
      exact ih
    · cases hp
      exact ih
  | @prepare σ p _ run arguments s ih =>
    obtain ⟨hdefinition, hconfiguration⟩ := p.definition_prepareBy run arguments s
    rw [hconfiguration, ih, name, name, hdefinition]

end Pipeline

inductive CallKind where
  | register
  | build
  | run
  deriving DecidableEq

/-- A coordinator registers, builds or runs a workflow. -/
structure Call (σ : Type) where
  kind : CallKind
  coordinator : Coordinator
  workflow : Workflow σ
  built : workflow.pipeline.Built

/-- A call that was made in a session. -/
structure PastCall (σ : Type) extends Call σ where
  before : Session σ

namespace Call

/-- The session after a call, whatever came of it. -/
def perform (call : Call σ) (s : Session σ) : Session σ :=
  match call.kind with
  | .register => (call.workflow.register call.coordinator call.workflow.pipeline s).2.2
  | .build => (call.workflow.build call.coordinator call.workflow.pipeline s).2.2
  | .run => (call.workflow.run call.coordinator call.workflow.pipeline s).2.2

/-- Whether a call runs a pipeline that compiles to a deployment and a spec. -/
def Deploys (call : Call σ) (s : Session σ) (p : Pipeline) (d : Deployment) (spec : Spec) : Prop :=
  call.kind = .run ∧ ∃ s', call.workflow.compile call.coordinator call.workflow.pipeline s
    = (.ok (d, spec), p, s')

end Call

/-- Whether this record of a deployment comes from a call. -/
def PastCall.Records (call : PastCall σ) (r : Record DeploymentEntry) : Prop :=
  r ∉ call.before.world.store.deployments
    ∧ r ∈ (call.perform call.before).world.store.deployments

/-- Whether all references in a store lead to records that fit, where each deployment is one that
was compiled for the call it comes from. -/
structure Store.Intact (s : Store) (past : List (PastCall σ)) : Prop where
  deployments : ∀ r ∈ s.deployments, ∃ call ∈ past, call.Records r
    ∧ ∃ p d spec, call.Deploys call.before p d spec ∧ r.body.Intact p d spec s
  builds : ∀ b ∈ s.builds, s.Knows b.body.pipeline
  schedules : ∀ r ∈ s.schedules, s.Knows r.body.pipeline

/-- The sessions that calls lead to, with the calls of before, the last one first. -/
inductive History : List (PastCall σ) → Session σ → Prop where
  | start {s : Session σ} (pipelines : s.world.store.pipelines = [])
      (schedules : s.world.store.schedules = []) (builds : s.world.store.builds = [])
      (deployments : s.world.store.deployments = []) : History [] s
  | call {past : List (PastCall σ)} {s : Session σ} (h : History past s) (call : Call σ) :
      History ({ call with before := s } :: past) (call.perform s)
  /-- Between two calls anything can happen that leaves the records alone. -/
  | meanwhile {past : List (PastCall σ)} {s s' : Session σ} (h : History past s)
      (same : s.world.SameRecords s'.world) : History past s'

/-! ## What a call adds -/

namespace Workflow

variable {flow : Workflow σ} {p : Pipeline} {s : Session σ}

/-- A relation of worlds that composes holds across what is done with a prepared workflow if it
holds across the action, since preparing takes no more than identifiers. -/
theorem rel_effect {R : World → World → Prop} (trans : ∀ {a b c}, R a b → R b c → R a c)
    (ids : ∀ (w : World) (n : Nat), R w { w with ids := w.ids.after n }) {α : Type}
    {f : Pipeline → Effect α} (h : ∀ p w, R w (f p w).2) :
    R s.world ((flow.prepareIfPossible >>= fun _ => effect f : Action σ α) p s).2.2.world := by
  have hprepare : R s.world (flow.prepareIfPossible p s).2.2.world := by
    obtain ⟨n, hids⟩ := sameButIds_prepareIfPossible (w := flow) (p := p) (s := s)
    rw [hids]
    exact ids s.world n
  rcases hp : flow.prepareIfPossible p s with ⟨e | _, p', s'⟩
  · rw [hp] at hprepare
    rw [bind_of_error hp]
    exact hprepare
  · rw [hp] at hprepare
    rw [bind_of_ok hp]
    exact trans hprepare (h p' s'.world)

theorem built_prepareIfPossible (h : p.Built) : (flow.prepareIfPossible p s).2.1.Built := by
  rw [prepareIfPossible]
  split
  · exact h
  · split
    · exact h
    · rw [Workflow.prepare]
      exact h.prepare flow.runner .empty s

theorem compile_of_prepare {c : Coordinator} {p' : Pipeline} {s' : Session σ}
    {compiled : Deployment × Spec} (hprepare : flow.prepareIfPossible p s = (.ok (), p', s'))
    (hcompile : p'.compile c.materializers c.stack = .ok compiled) :
    flow.compile c p s = (.ok compiled, p', s') := by
  have heffect : effect c.compile p' s' = (.ok compiled, p', s') := by
    rw [effect, Coordinator.compile, Effect.lift, hcompile]
    rfl
  rw [compile, bind_of_ok hprepare, heffect]

end Workflow

/-- A relation of worlds that composes holds across a call if it holds across what the call may do:
take identifiers, register, build, and run what has been compiled. -/
theorem Call.rel {R : World → World → Prop} (call : Call σ) (s : Session σ)
    (trans : ∀ {a b c}, R a b → R b c → R a c)
    (ids : ∀ (w : World) (n : Nat), R w { w with ids := w.ids.after n })
    (register : ∀ p w, R w (call.coordinator.register p w).2)
    (build : ∀ p w, R w (call.coordinator.build p w).2)
    (run : ∀ {p d spec w requests result}, p.Built → call.Deploys s p d spec →
      p.compile call.coordinator.materializers call.coordinator.stack = .ok (d, spec) →
      call.coordinator.Trace p d spec .register w requests result →
      R w (w.performAll requests)) :
    R s.world (call.perform s).world := by
  rw [perform]
  cases hkind : call.kind with
  | register => exact Workflow.rel_effect (R := R) trans ids register
  | build => exact Workflow.rel_effect (R := R) trans ids build
  | run =>
    obtain ⟨n, w, requests, hids, hworld, hending⟩ :=
      call.workflow.exists_ending_run call.coordinator call.workflow.pipeline s
    have hprepared : R s.world w := by
      rw [hids]
      exact ids s.world n
    dsimp only
    rw [hworld]
    generalize (call.workflow.run call.coordinator call.workflow.pipeline s).1 = result at hending
    cases hending with
    | suppressed | unprepared | uncompiled => exact hprepared
    | @dispatched requests result p s' d spec prepare compile trace =>
      have hbuilt : (call.workflow.prepareIfPossible call.workflow.pipeline s).2.1.Built :=
        Workflow.built_prepareIfPossible call.built
      rw [prepare] at hbuilt
      have hdeploys : call.Deploys s p d spec :=
        ⟨hkind, s', Workflow.compile_of_prepare prepare compile⟩
      exact trans hprepared (run hbuilt hdeploys compile trace)

/-- However a call ends, it adds only records whose references fit. -/
theorem Call.adds (call : Call σ) (s : Session σ) :
    s.world.Adds (call.Deploys s) (call.perform s).world := by
  refine call.rel s .trans .of_ids call.coordinator.adds_register call.coordinator.adds_build ?_
  intro p d spec w requests result built deploys compile trace
  obtain ⟨hstack, hname⟩ := Pipeline.stack_of_compile compile
  exact trace.adds trivial deploys hstack (hname.trans built.name_eq)

/-! ## Whole histories -/

/-- What was intact stays intact if only records are added whose references fit. -/
theorem Store.Intact.adds {w w' : World} {past past' : List (PastCall σ)} {deploys : Deploys}
    (h : w.store.Intact past) (hadds : w.Adds deploys w') (hpast : past ⊆ past')
    (hnew : ∀ r ∈ w'.store.deployments, r ∉ w.store.deployments → ∀ p d spec, deploys p d spec →
      ∃ call ∈ past', call.Records r ∧ call.Deploys call.before p d spec) :
    w'.store.Intact past' where
  deployments r hr := by
    -- Without fresh identifiers a new record may equal an old one, which then speaks for it.
    by_cases hold : r ∈ w.store.deployments
    · obtain ⟨call, hcall, hrecords, p, d, spec, hdeploys, hintact⟩ := h.deployments r hold
      exact ⟨call, hpast hcall, hrecords, p, d, spec, hdeploys, hintact.mono hadds.keeps⟩
    · obtain ⟨p, d, spec, hdeploys, hintact⟩ := (hadds.deployments r hr).resolve_left hold
      obtain ⟨call, hcall, hrecords, hcompiled⟩ := hnew r hr hold p d spec hdeploys
      exact ⟨call, hcall, hrecords, p, d, spec, hcompiled, hintact⟩
  builds b hb := (hadds.builds b hb).elim (fun hold => (h.builds b hold).mono hadds.keeps) id
  schedules r hr :=
    (hadds.schedules r hr).elim (fun hold => (h.schedules r hold).mono hadds.keeps) id

namespace History

variable {past : List (PastCall σ)} {s : Session σ}

theorem stamped (h : History past s) : s.world.Stamped := by
  induction h with
  | start pipelines schedules builds deployments =>
    refine ⟨[], List.nodup_nil, List.forall_mem_nil _, ?_⟩
    rw [Store.recordIds, pipelines, schedules, builds, deployments]
    exact .nil
  | call h call ih => exact (call.adds _).stamped ih
  | meanwhile h same ih =>
    have hadds : World.Adds (fun _ _ _ => False) _ _ := .of_same same
    exact hadds.stamped ih

/-- However workflows are registered, built and run, by whichever coordinators: all references in
the store lead to records that fit, and to no others as long as identifiers are fresh. -/
theorem store_intact (h : History past s) :
    s.world.store.Intact past ∧ (s.world.ids.Fresh → s.world.store.recordIds.Nodup) := by
  refine ⟨?_, h.stamped.nodup⟩
  induction h with
  | start pipelines schedules builds deployments =>
    refine ⟨?_, ?_, ?_⟩
    · rw [deployments]
      exact List.forall_mem_nil _
    · rw [builds]
      exact List.forall_mem_nil _
    · rw [schedules]
      exact List.forall_mem_nil _
  | @call past s h call ih =>
    refine ih.adds (call.adds s) (List.subset_cons_self _ _) fun r hr hnew p d spec hdeploys => ?_
    exact ⟨{ call with before := s }, List.mem_cons_self, ⟨hnew, hr⟩, hdeploys⟩
  | meanwhile h same ih =>
    have hadds : World.Adds (fun _ _ _ => False) _ _ := .of_same same
    exact ih.adds hadds (List.Subset.refl _) fun _ _ _ _ _ _ hdeploys => hdeploys.elim

end History

namespace Sample

open Coordinator

/-- A coordinator for a stack that needs no builds and accepts every deployment. -/
def coordinator : Coordinator where
  stack := .recording (.ofNat 1)
  materializers := .standard

/-- The sample pipeline compiles with a coherent graph. -/
theorem exists_compiles_prepared :
    ∃ g steps, g.Coherent ∧ prepared.Compiles .standard (.recording (.ofNat 1)) ∅ g steps
      ∧ compiled = prepared.outcomeOf (.recording (.ofNat 1)) ∅ steps := by
  have hcompile : prepared.compileWith .standard (.recording (.ofNat 1)) ∅
      = .ok (compiled.1, compiled.2) := rfl
  obtain ⟨g, steps, h, houtcome⟩ := Pipeline.compileWith_eq_ok_iff.1 hcompile
  obtain ⟨g', hg, hcoherent⟩ := Workflow.exists_coherent_graph prepare_training
  cases hg.symm.trans h.graph
  exact ⟨g, steps, hcoherent, h, houtcome⟩

theorem exists_versionHash_prepared : ∃ hash, prepared.versionHash compiled.2 = .ok hash := by
  obtain ⟨g, steps, hcoherent, h, houtcome⟩ := exists_compiles_prepared
  rw [houtcome]
  exact h.exists_versionHash hcoherent

theorem exists_cacheKeys_prepared : ∃ keys, cacheKeys prepared compiled.1 = .ok keys := by
  obtain ⟨g, steps, hcoherent, h, houtcome⟩ := exists_compiles_prepared
  obtain ⟨keys, hkeys, -⟩ := h.exists_cacheKeys hcoherent
  rw [houtcome]
  exact ⟨keys, hkeys⟩

/-- The sample pipeline is registered with one identifier, and nothing else happens. -/
theorem exists_registerSpec_prepared :
    ∃ v w, registerSpec prepared compiled.2 preparedSession.world = (.ok v, w)
      ∧ w.ids = preparedSession.world.ids.after 1 ∧ w.guard = preparedSession.world.guard
      ∧ w.store.builds = [] ∧ w.store.deployments = [] := by
  obtain ⟨hash, hhash⟩ := exists_versionHash_prepared
  exact ⟨_, _, (registerSpec_of_ok hhash _).trans rfl, rfl, rfl, rfl, rfl⟩

/-- Once its version is registered, a run of the sample pipeline comes to its end with one more
identifier. -/
theorem exists_dispatch_of_registerSpec {w w' : World} {v : Record PipelineVersion}
    (h : registerSpec prepared compiled.2 w = (.ok v, w')) :
    ∃ records w'', coordinator.dispatch prepared w = (.ok records, w'')
      ∧ records.pipeline = some v ∧ records.deployment ∈ w''.store.deployments
      ∧ records.deployment.body.pipeline = some v.id ∧ w''.ids = w'.ids.after 1 := by
  obtain ⟨keys, hkeys⟩ := exists_cacheKeys_prepared
  have hregister : coordinator.registerRun prepared compiled.2 w = (.ok (some v), w') := by
    have hlisted : coordinator.registers prepared = true := rfl
    rw [registerRun, hlisted, if_pos rfl, Effect.map_of_ok h]
  have hcompile : prepared.compile coordinator.materializers coordinator.stack
      = .ok (compiled.1, compiled.2) := rfl
  have hschedule : coordinator.createSchedule compiled.1 (some v.id) w' = (.ok none, w') := rfl
  have hbuild : coordinator.resolveBuild compiled.1 (some v.id)
      (coordinator.downloadsCode compiled.1) (!prepared.options.preventBuildReuse) w'
      = (.ok none, w') := rfl
  obtain ⟨records, w'', hdispatch, hlisted, hbody, -, hdeployments, hids⟩ :=
    exists_dispatch hcompile hregister hschedule hbuild hkeys (fun _ => rfl) (fun _ => rfl)
  refine ⟨records, w'', hdispatch, hlisted, ?_, ?_, hids⟩
  · rw [hdeployments]
    exact List.mem_append_right _ List.mem_cons_self
  · rw [hbody]
    rfl

/-- The sample pipeline is registered and deployed, each with one identifier. -/
theorem exists_dispatch_prepared :
    ∃ records w, coordinator.dispatch prepared preparedSession.world = (.ok records, w)
      ∧ records.deployment ∈ w.store.deployments
      ∧ (∃ id, records.deployment.body.pipeline = some id)
      ∧ w.ids = preparedSession.world.ids.after 2 := by
  obtain ⟨v, w, hregister, hids, -⟩ := exists_registerSpec_prepared
  obtain ⟨records, w', hdispatch, -, hstored, hversion, hids'⟩ :=
    exists_dispatch_of_registerSpec hregister
  exact ⟨records, w', hdispatch, hstored, ⟨_, hversion⟩, hids'.trans (by rw [hids]; rfl)⟩

/-- A run of the sample pipeline, which prepares it first. -/
def trainingRun : Call Unit where
  kind := .run
  coordinator
  workflow := ⟨training, entry⟩
  built := .withParameter (.withSourceCode (.withSource (.ofName _) _) _) _ _

def openSession : Session Unit := { world := .initial, memory := () }

theorem built_prepared : prepared.Built := by
  have hbuilt :
      ((⟨training, entry⟩ : Workflow Unit).prepare .empty training openSession).2.1.Built :=
    trainingRun.built.prepare _ _ _
  have hprepare : (⟨training, entry⟩ : Workflow Unit).prepare .empty training openSession
      = (.ok (), prepared, preparedSession) := prepare_training
  rw [hprepare] at hbuilt
  exact hbuilt

/-- A run on an empty store leaves a deployment with a version that it refers to. -/
theorem intact_trainingRun :
    History [{ trainingRun with before := openSession }] (trainingRun.perform openSession)
    ∧ (∃ r ∈ (trainingRun.perform openSession).world.store.deployments,
        ∃ id, r.body.pipeline = some id)
    ∧ (trainingRun.perform openSession).world.store.Intact
        [{ trainingRun with before := openSession }]
    ∧ (trainingRun.perform openSession).world.store.recordIds.Nodup := by
  have hhistory : History [{ trainingRun with before := openSession }]
      (trainingRun.perform openSession) := .call (.start rfl rfl rfl rfl) trainingRun
  obtain ⟨records, w, hdispatch, hstored, hversion, hids⟩ := exists_dispatch_prepared
  have hprepare : trainingRun.workflow.prepareIfPossible training openSession
      = (.ok (), prepared, preparedSession) := by
    rw [Workflow.prepareIfPossible]
    exact prepare_training
  have hopen : ¬ coordinator.isSuppressed openSession.world = true := Bool.false_ne_true
  have hworld : (trainingRun.perform openSession).world = w := by
    change (trainingRun.workflow.run coordinator training openSession).2.2.world = w
    rw [Workflow.run, if_neg hopen, Workflow.bind_of_ok hprepare, Workflow.effect,
      Effect.map_of_ok hdispatch]
    rfl
  obtain ⟨hintact, hnodup⟩ := hhistory.store_intact
  have hfresh : (trainingRun.perform openSession).world.ids.Fresh := by
    rw [hworld, hids]
    exact Supply.fresh_ofNat (by decide)
  rw [← hworld] at hstored
  exact ⟨hhistory, ⟨_, hstored, hversion⟩, hintact, hnodup hfresh⟩

end Sample

end Pipework
