import Pipework.Proofs.Dispatch.CodeReference
import Pipework.Proofs.Dispatch.Versions
import Pipework.Proofs.Document.Deployment

/-!
# Deployments read back

The record of a deployment is read back from the JSON that is written for it, and equals what was
stored unless a step takes null as the value of an external artifact
(`Coordinator.readBack_run`): null is then written as a value and read as no value.
-/

namespace Pipework

/-! ## Deployments that are added -/

namespace World

/-- A deployment that a request adds is the one that was asked for, and bears the time. -/
theorem exists_added_perform (w : World) (request : RunRequest) :
    ∃ added, (w.perform request).store.deployments = w.store.deployments ++ added
      ∧ ∀ r ∈ added, request = .createDeployment r.body ∧ r.stamp.created = w.clock := by
  cases request with
  | createDeployment entry =>
    refine ⟨[_], rfl, fun r hr => ?_⟩
    rw [List.mem_singleton.1 hr]
    exact ⟨rfl, rfl⟩
  | createVersion v =>
    refine ⟨[], ?_, List.forall_mem_nil _⟩
    have hsame := (w.records_createPipeline v).2
    rw [List.append_nil]
    rcases hcreate : w.createPipeline v with ⟨cause | record, w'⟩
    · rw [perform_createVersion_of_error hcreate, ← hsame, hcreate]
    · rw [perform_createVersion_of_ok hcreate, ← hsame, hcreate]
      rfl
  | lookUp | createSchedule | createBuild | prepare | deploy | report =>
    exact ⟨[], (List.append_nil _).symm, List.forall_mem_nil _⟩

theorem exists_added_performAll (w : World) (requests : List RunRequest) :
    ∃ added, (w.performAll requests).store.deployments = w.store.deployments ++ added
      ∧ ∀ r ∈ added, .createDeployment r.body ∈ requests ∧ r.stamp.created = w.clock := by
  induction requests generalizing w with
  | nil => exact ⟨[], (List.append_nil _).symm, List.forall_mem_nil _⟩
  | cons request requests ih =>
    obtain ⟨first, hfirst, hown⟩ := w.exists_added_perform request
    obtain ⟨later, hlater, hrest⟩ := ih (w.perform request)
    refine ⟨first ++ later, by rw [performAll_cons, hlater, hfirst, List.append_assoc], ?_⟩
    intro r hr
    rcases List.mem_append.1 hr with hr | hr
    · exact ⟨List.mem_cons.2 (.inl (hown r hr).1.symm), (hown r hr).2⟩
    · obtain ⟨hmem, hcreated⟩ := hrest r hr
      exact ⟨List.mem_cons_of_mem _ hmem, hcreated.trans (w.extends_perform request).clock⟩

end World

namespace Coordinator

variable {c : Coordinator} {p : Pipeline} {d : Deployment} {spec : Spec} {w : World}
  {stage : RunStage} {requests : List RunRequest} {e : DeploymentEntry}

/-- A run asks for a deployment with the steps that were compiled for it, and for no other. -/
theorem Advance.steps_of_mem {outcome : Except Error RunStage}
    (h : c.Advance p d spec w stage requests outcome) (he : .createDeployment e ∈ requests) :
    e.steps = d.steps := by
  cases h with
  | registered phases | unregistered phases => cases phases _ he
  | recorded =>
    cases List.mem_singleton.1 he
    rfl
  | unlisted | unscheduled | scheduled | unbuilt | reused | built | unusable | unkeyed | prepared
  | unprepared | deployed | undeployed | reported | finished => simp at he

theorem Trace.steps_of_mem {result : Except Error RunRecords}
    (h : c.Trace p d spec stage w requests result) (he : .createDeployment e ∈ requests) :
    e.steps = d.steps := by
  induction h with
  | done => cases he
  | failed advance => exact advance.steps_of_mem he
  | next advance _ _ ih =>
    rcases List.mem_append.1 he with he | he
    · exact advance.steps_of_mem he
    · exact ih he

/-- Deployments that a run adds have the time of the run and the steps that were compiled. -/
theorem exists_added_run (c : Coordinator) (p : Pipeline) (w : World) :
    ∃ added, (c.run p w).2.store.deployments = w.store.deployments ++ added
      ∧ ∀ r ∈ added, r.stamp.created = w.clock
        ∧ ∃ d spec, p.compile c.materializers c.stack = .ok (d, spec) ∧ r.body.steps = d.steps := by
  have hnone : w.store.deployments = w.store.deployments ++ [] := (List.append_nil _).symm
  cases hguard : c.isSuppressed w with
  | true =>
    rw [run_of_suppressed hguard]
    exact ⟨[], hnone, List.forall_mem_nil _⟩
  | false =>
    rw [run_of_open hguard]
    cases hcompile : p.compile c.materializers c.stack with
    | error cause =>
      rw [dispatch_of_error hcompile]
      exact ⟨[], hnone, List.forall_mem_nil _⟩
    | ok compiled =>
      obtain ⟨d, spec⟩ := compiled
      obtain ⟨requests, htrace, hworld⟩ := exists_trace_dispatch hcompile w
      obtain ⟨added, hadded, hrequested⟩ := w.exists_added_performAll requests
      refine ⟨added, by rw [hworld, hadded], fun r hr => ?_⟩
      obtain ⟨hmem, hcreated⟩ := hrequested r hr
      exact ⟨hcreated, d, spec, rfl, htrace.steps_of_mem hmem⟩

end Coordinator

/-! ## Nulls in a pipeline -/

/-- Whether some step takes null as the value of an external artifact. -/
def Pipeline.InlinesNull (p : Pipeline) : Prop :=
  ∃ i ∈ p.invocations, ∃ a ∈ i.externals.values, a.content = .value .null

instance : DecidablePred Pipeline.InlinesNull := fun p =>
  inferInstanceAs (Decidable (∃ i ∈ p.invocations, ∃ a ∈ i.externals.values,
    a.content = .value .null))

theorem ExternalArtifact.value_resolve_eq_null_iff {a : ExternalArtifact} :
    a.resolve.value = some .null ↔ a.content = .value .null := by
  obtain ⟨content, materializer⟩ := a
  cases content <;> simp [resolve, value?]

theorem Invocation.withoutNulls_eq_iff_of_compile {i : Invocation} {c : PipelineConfiguration}
    {override : Option StepLayer} {materializers : Materializers} {stackKeys : List String}
    {step : DeploymentStep} (h : i.compile c override materializers stackKeys = .ok step) :
    step.withoutNulls = step ↔ ∀ a ∈ i.externals.values, a.content ≠ .value .null := by
  obtain ⟨-, parameters, outputs, -, -, rfl⟩ := compile_eq_ok_iff.1 h
  rw [DeploymentStep.withoutNulls_eq_iff, stepWith, Dict.values_map, List.forall_mem_map]
  exact forall₂_congr fun a _ => not_congr ExternalArtifact.value_resolve_eq_null_iff

/-- The steps of a deployment lose nothing if and only if the pipeline inlines no null. -/
theorem Pipeline.withoutNulls_eq_iff_of_compile {p : Pipeline} {materializers : Materializers}
    {stack : Stack} {d : Deployment} {spec : Spec}
    (h : p.compile materializers stack = .ok (d, spec)) :
    (∀ s ∈ d.steps, s.withoutNulls = s) ↔ ¬ p.InlinesNull := by
  obtain ⟨run, -, hcompile⟩ := bind_eq_ok_iff.1 h
  obtain ⟨g, steps, hcompiles, houtcome⟩ := compileWith_eq_ok_iff.1 hcompile
  cases houtcome
  have hinvocations : p.invocations = g.invocations.toList := by
    rw [invocations, hcompiles.graph]
  rw [InlinesNull, hinvocations]
  push Not
  constructor
  · intro hsteps i hi
    obtain ⟨s, hs, hcompile⟩ := exists_mem_of_forall₂ hcompiles.steps.flip hi
    exact (Invocation.withoutNulls_eq_iff_of_compile hcompile).1 (hsteps s hs)
  · intro hnulls s hs
    obtain ⟨i, hi, hcompile⟩ := exists_mem_of_forall₂ hcompiles.steps hs
    exact (Invocation.withoutNulls_eq_iff_of_compile hcompile).2 (hnulls i hi)

/-! ## Deployments of a run -/

namespace Coordinator

/-- A deployment that was stored at a time that can be shown is read back from its JSON. -/
theorem readBack_of_compile {c : Coordinator} {p : Pipeline} {d : Deployment} {spec : Spec}
    {r : Record DeploymentEntry} (hcompile : p.compile c.materializers c.stack = .ok (d, spec))
    (hcreated : r.stamp.created.Valid) (hsteps : r.body.steps = d.steps) :
    Record.read? (toJson r) = some r.withoutNulls
      ∧ (Record.read? (toJson r) = some r ↔ ¬ p.InlinesNull) := by
  have hread : Record.read? (toJson r) = some r.withoutNulls := Record.read?_toJson hcreated
  refine ⟨hread, ?_⟩
  rw [hread, Option.some.injEq, Record.withoutNulls_eq_iff, hsteps]
  exact Pipeline.withoutNulls_eq_iff_of_compile hcompile

/-- However a run ends, a deployment that it has stored is read back from its JSON, and equals what
was stored if and only if no step takes null as the value of an external artifact. -/
theorem readBack_run (c : Coordinator) (p : Pipeline) {w : World} (hclock : w.clock.Valid) :
    ∃ added, (c.run p w).2.store.deployments = w.store.deployments ++ added
      ∧ ∀ r ∈ added, Record.read? (toJson r) = some r.withoutNulls
        ∧ (Record.read? (toJson r) = some r ↔ ¬ p.InlinesNull) := by
  obtain ⟨added, hadded, hstored⟩ := c.exists_added_run p w
  refine ⟨added, hadded, fun r hr => ?_⟩
  obtain ⟨hcreated, d, spec, hcompile, hsteps⟩ := hstored r hr
  exact readBack_of_compile hcompile (hcreated ▸ hclock) hsteps

end Coordinator

namespace Sample

open Coordinator

/-- A run of the sample pipeline, which inlines no null, stores a deployment that is read back as it
was stored. -/
theorem readBack_run_prepared : preparedSession.world.clock.Valid
    ∧ ∃ r ∈ (coordinator.run prepared preparedSession.world).2.store.deployments,
      Record.read? (toJson r) = some r := by
  have hclock : preparedSession.world.clock.Valid := by decide
  have hnulls : ¬ prepared.InlinesNull := by decide +kernel
  obtain ⟨records, w, hdispatch, hstored, -⟩ := exists_dispatch_prepared
  have hopen : coordinator.isSuppressed preparedSession.world = false := rfl
  obtain ⟨added, hadded, hread⟩ := readBack_run coordinator prepared hclock
  have hempty : preparedSession.world.store.deployments = [] := rfl
  rw [hempty, List.nil_append, run_of_open hopen, hdispatch] at hadded
  rw [run_of_open hopen, hdispatch]
  exact ⟨hclock, _, hstored, (hread _ (hadded ▸ hstored)).2.2 hnulls⟩

/-- The sample pipeline without its loader: null stands in for the dataset. -/
def nullEntry (_ : Dict Json) : Program Unit :=
  callStep trainer
    (fun step => { step, externals := .ofList [("dataset", { content := .value .null })] }) "model"
    fun _ => .done (.ok .null)

/-- A pipeline with this entrypoint, which is run without being registered. -/
def unlisted : Pipeline := training.withOptions { unlisted := true }

def feeding : InvocationRequest where
  step := learning.step
  externals := .ofList [("dataset", { content := .value .null })]

def fed : Graph := start.graph.push (.ofRequest "trainer" feeding)

/-- That pipeline after its preparation. -/
def nullFed : Pipeline :=
  { unlisted with graph := fed, arguments := .ofList [("rows", .ofNat 100)] }

theorem prepare_unlisted : (⟨unlisted, nullEntry⟩ : Workflow Unit).prepare .empty unlisted
    { world := .initial, memory := () } = (.ok (), nullFed, preparedSession) := by
  have hstart : start.graph.Coherent := training.coherent_opening _
  have hcall : start.graph.call start.session.world.slot feeding = .ok (fed, _) :=
    hstart.call_ok rfl rfl (by decide +kernel) (by decide +kernel) (by decide +kernel)
  have hstep : trainer = .ok feeding.step := rfl
  have hrun : (nullEntry (.ofList [("rows", .ofNat 100)])).run start
      = (.ok .null, { start with graph := fed }) := by
    rw [nullEntry, run_callStep hstep hcall rfl]
    rfl
  exact Pipeline.prepareBy_eq_ok_iff.2
    ⟨by decide +kernel, rfl, _, _, _, rfl, hrun, rfl, rfl⟩

def nullCompiled : Deployment × Spec :=
  (nullFed.compileWith .standard (.recording (.ofNat 1)) ∅).toOption.get (by decide +kernel)

theorem exists_dispatch_nullFed : ∃ records w,
    coordinator.dispatch nullFed preparedSession.world = (.ok records, w)
      ∧ w.store.deployments = [records.deployment] := by
  have hcompile : nullFed.compile coordinator.materializers coordinator.stack
      = .ok (nullCompiled.1, nullCompiled.2) := rfl
  have hregister : coordinator.registerRun nullFed nullCompiled.2 preparedSession.world
      = (.ok none, preparedSession.world) := rfl
  have hschedule : coordinator.createSchedule nullCompiled.1 none preparedSession.world
      = (.ok none, preparedSession.world) := rfl
  have hbuild : coordinator.resolveBuild nullCompiled.1 none
      (coordinator.downloadsCode nullCompiled.1) (!nullFed.options.preventBuildReuse)
      preparedSession.world = (.ok none, preparedSession.world) := rfl
  have hcompileWith : nullFed.compileWith .standard (.recording (.ofNat 1)) ∅
      = .ok (nullCompiled.1, nullCompiled.2) := rfl
  obtain ⟨-, keys, hkeys, -⟩ :=
    Workflow.exists_versionHash_and_cacheKeys prepare_unlisted rfl hcompileWith
  obtain ⟨records, w, hdispatch, -, -, -, hstored, -⟩ :=
    exists_dispatch hcompile hregister hschedule hbuild hkeys (fun _ => rfl) (fun _ => rfl)
  exact ⟨records, w, hdispatch, hstored⟩

/-- A run of the pipeline stores one deployment, and what is read back is another. -/
theorem exists_run_nullFed : ∃ r,
    (coordinator.run nullFed preparedSession.world).2.store.deployments = [r]
      ∧ Record.read? (toJson r) ≠ some r := by
  obtain ⟨records, w, hdispatch, hstored⟩ := exists_dispatch_nullFed
  have hrun : (coordinator.run nullFed preparedSession.world).2 = w := by
    rw [run_of_open rfl, hdispatch]
  obtain ⟨added, hadded, hmade⟩ := coordinator.exists_added_run nullFed preparedSession.world
  have hempty : preparedSession.world.store.deployments = [] := rfl
  rw [hrun, hstored, hempty, List.nil_append] at hadded
  obtain ⟨hcreated, d, spec, hcompile, hsteps⟩ := hmade _ (hadded ▸ List.mem_cons_self)
  have hvalid : records.deployment.stamp.created.Valid := hcreated ▸ (by decide)
  have hnull : nullFed.InlinesNull := by decide +kernel
  refine ⟨records.deployment, by rw [hrun, hstored], fun hread => ?_⟩
  exact (readBack_of_compile hcompile hvalid hsteps).2.1 hread hnull

end Sample

/-- Not every deployment of a prepared pipeline is read back as it was stored. -/
theorem Coordinator.not_forall_readBack : ¬ ∀ (flow : Workflow Unit) (arguments : Dict Json)
    (p p' : Pipeline) (s s' : Session Unit), flow.prepare arguments p s = (.ok (), p', s') →
      ∀ c : Coordinator, s'.world.clock.Valid →
        ∀ r ∈ (c.run p' s'.world).2.store.deployments, r ∉ s'.world.store.deployments →
          Record.read? (toJson r) = some r := by
  intro h
  obtain ⟨r, hstored, hread⟩ := Sample.exists_run_nullFed
  have hr : r ∈ (Sample.coordinator.run Sample.nullFed
      Sample.preparedSession.world).2.store.deployments := by simp [hstored]
  exact hread (h _ _ _ _ _ _ Sample.prepare_unlisted Sample.coordinator (by decide) r hr
    List.not_mem_nil)

end Pipework
