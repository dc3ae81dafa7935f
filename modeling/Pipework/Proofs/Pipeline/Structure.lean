import Pipework.Proofs.Graph.Fitting
import Pipework.Proofs.Pipeline.Identity

/-!
# The structure of compiled pipelines

A deployment repeats the invocations of the graph in their order. Each of its steps depends on
earlier steps only, among them those that produce its inputs, and gives a value for every input,
parameter and output that the signature of the step declares, and for no others.
-/

namespace Pipework

/-- What a step of a deployment says of the invocation that it comes from, after steps with these
ids. -/
structure DeploymentStep.WellFormed (step : DeploymentStep) (i : Invocation)
    (earlier : List String) : Prop where
  name : step.config.name = i.id
  id : step.spec.id = i.id
  source : step.spec.source = i.step.source
  /-- Predecessors are listed in ascending order, each of them once. -/
  sorted : step.spec.predecessors.Pairwise (· < ·)
  producers : ∀ input ∈ step.spec.inputs.values, input.producer ∈ step.spec.predecessors
  earlier : ∀ id ∈ step.spec.predecessors, id ∈ earlier
  /-- No input comes from a step and from outside. -/
  disjoint : step.spec.inputs.keys.Disjoint step.config.externalInputs.keys
  inputs : ∀ name, name ∈ step.spec.inputs.keys ∨ name ∈ step.config.externalInputs.keys
    ↔ name ∈ i.step.signature.inputs.keys
  parameters : step.config.parameters.keys = i.step.signature.parameters.keys
  /-- The outputs and their types. -/
  outputs : step.config.outputs.map (·.typeName) = i.step.signature.outputs

namespace Invocation

variable {i : Invocation} {c : PipelineConfiguration} {override : Option StepLayer}
  {materializers : Materializers} {stackKeys : List String} {step : DeploymentStep}

/-- A step has a value for each parameter that is declared, and for no others. -/
theorem keys_parameters_of_resolve {pipeline : String} {given parameters : Dict Json}
    (h : i.resolveParameters pipeline given = .ok parameters) :
    parameters.keys = i.step.signature.parameters.keys := by
  unfold resolveParameters at h
  split at h
  · cases h
  · rename_i hknown
    split at h
    · rename_i hfilled
      cases h
      exact Dict.keys_withDefaults hknown hfilled
    · cases h

theorem typeName_of_resolveOutput {pipeline output typeName : String} {layered : Dict OutputLayer}
    {resolved : OutputConfiguration}
    (h : i.resolveOutput pipeline materializers layered output typeName = .ok resolved) :
    resolved.typeName = typeName := by
  unfold resolveOutput at h
  split at h <;> cases h
  rfl

/-- The outputs of a step are those that are declared, with their types. -/
theorem typeNames_of_resolveOutputs {pipeline : String} {layered : Dict OutputLayer}
    {outputs : Dict OutputConfiguration}
    (h : i.resolveOutputs pipeline materializers layered = .ok outputs) :
    outputs.map (·.typeName) = i.step.signature.outputs := by
  unfold resolveOutputs at h
  split at h
  · cases h
  · exact Dict.map_traverse h fun _ _ _ => typeName_of_resolveOutput

/-- What the compiler makes of an invocation of a graph that is coherent and fits. -/
theorem wellFormed_of_compile {earlier : List String} (hfits : i.Fits)
    (hproducers : ∀ a ∈ i.inputs.values, a.producer ∈ i.predecessors.keys)
    (hearlier : ∀ id ∈ i.predecessors.keys, id ∈ earlier)
    (h : i.compile c override materializers stackKeys = .ok step) : step.WellFormed i earlier := by
  obtain ⟨-, parameters, outputs, hparameters, houtputs, rfl⟩ := compile_eq_ok_iff.1 h
  have hinputs : (i.spec.inputs).keys = i.inputs.keys := Dict.keys_map _ _
  have hexternals : (i.externals.map ExternalArtifact.resolve).keys = i.externals.keys :=
    Dict.keys_map _ _
  refine ⟨rfl, rfl, rfl, i.predecessors.pairwise_keys, ?_, hearlier, ?_, fun name => ?_,
    keys_parameters_of_resolve hparameters, typeNames_of_resolveOutputs houtputs⟩
  · intro input hinput
    rw [stepWith, spec, Dict.values_map] at hinput
    obtain ⟨a, ha, rfl⟩ := List.mem_map.1 hinput
    exact hproducers a ha
  · rw [stepWith, hinputs, hexternals]
    exact hfits.disjoint
  · rw [stepWith, hinputs, hexternals]
    exact hfits.inputs name

end Invocation

/-- An invocation depends on invocations with ids before its own. -/
theorem Graph.Coherent.mem_take_ids {g : Graph} (hg : g.Coherent) {n : Nat} {i : Invocation}
    (hi : g.invocations[n]? = some i) : ∀ id ∈ i.predecessors.keys, id ∈ g.ids.take n := by
  intro id hid
  obtain ⟨m, hm, hget⟩ := hg.earlier n i hi id hid
  refine List.mem_of_getElem? (i := m) ?_
  rw [List.getElem?_take_of_lt hm, hget]

namespace Pipeline.Compiles

variable {p : Pipeline} {materializers : Materializers} {stack : Stack} {run : RunConfiguration}
  {g : Graph} {steps : List DeploymentStep}

/-- The step at a position is compiled from the invocation at that position. -/
theorem compile_getElem? (h : p.Compiles materializers stack run g steps) {n : Nat}
    {i : Invocation} {step : DeploymentStep} (hi : g.invocations[n]? = some i)
    (hstep : steps[n]? = some step) :
    i.compile (p.configurationFor run) (run.steps.get? i.id) materializers stack.settingKeys.keys
      = .ok step := by
  obtain ⟨hlength, hcompile⟩ := List.forall₂_iff_get.1 h.steps
  obtain ⟨hn, rfl⟩ := Array.getElem?_eq_some_iff.1 hi
  obtain ⟨hm, rfl⟩ := List.getElem?_eq_some_iff.1 hstep
  simpa using hcompile n (by simpa using hn) hm

theorem wellFormed_getElem? (h : p.Compiles materializers stack run g steps) (hg : g.Coherent)
    (hfitting : g.Fitting) {n : Nat} {i : Invocation} {step : DeploymentStep}
    (hi : g.invocations[n]? = some i) (hstep : steps[n]? = some step) :
    step.WellFormed i ((steps.take n).map (·.config.name)) := by
  have hmem : i ∈ g.invocations := Array.mem_of_getElem? hi
  refine Invocation.wellFormed_of_compile (hfitting i hmem) (hg.producers i hmem) ?_
    (h.compile_getElem? hi hstep)
  rw [List.map_take, h.names_eq]
  exact hg.mem_take_ids hi

end Pipeline.Compiles

namespace Workflow

variable {σ : Type}

/-- The invocations of a prepared pipeline fit their steps. -/
theorem exists_fitting_graph {w : Workflow σ} {p p' : Pipeline} {s s' : Session σ}
    {arguments : Dict Json} (h : w.prepare arguments p s = (.ok (), p', s')) :
    ∃ g, p'.graph = some g ∧ g.Coherent ∧ g.Fitting :=
  exists_graph (P := fun g => g.Coherent ∧ g.Fitting)
    (fun pipeline pass => ⟨.new pipeline pass false, .new pipeline pass false⟩)
    (fun _ _ _ _ _ hg hcall => ⟨hg.1.call hcall, hg.2.call hcall⟩) h

/-- However a workflow has been prepared and configured afterwards: if it compiles, then deployment
and spec list the invocations of its graph in their order, under different ids, and every step of
the deployment is well formed. -/
theorem wellFormed_compileWith {w : Workflow σ} {p p' q : Pipeline} {s s' : Session σ}
    {arguments : Dict Json} {materializers : Materializers} {stack : Stack}
    {run : RunConfiguration} {d : Deployment} {spec : Spec}
    (hprepare : w.prepare arguments p s = (.ok (), p', s')) (hgraph : q.graph = p'.graph)
    (hcompile : q.compileWith materializers stack run = .ok (d, spec)) :
    (q.invocations.map (·.id)).Nodup
    ∧ d.steps.length = q.invocations.length
    ∧ spec.steps = d.steps.map (·.spec)
    ∧ ∀ (n : Nat) (i : Invocation) (step : DeploymentStep),
        q.invocations[n]? = some i → d.steps[n]? = some step →
        step.WellFormed i ((d.steps.take n).map (·.config.name)) := by
  obtain ⟨g, hg, hcoherent, hfitting⟩ := exists_fitting_graph hprepare
  obtain ⟨g', steps, h, houtcome⟩ := Pipeline.compileWith_eq_ok_iff.1 hcompile
  cases hg.symm.trans (hgraph.symm.trans h.graph)
  cases houtcome
  have hinvocations : q.invocations = g.invocations.toList := by
    rw [Pipeline.invocations, h.graph]
  rw [hinvocations]
  refine ⟨hcoherent.nodup, h.steps.length_eq.symm, rfl, fun n i step hi hstep => ?_⟩
  rw [Array.getElem?_toList] at hi
  exact h.wellFormed_getElem? hcoherent hfitting hi hstep

end Workflow

namespace Sample

/-- The session after the preparation, which has taken one identifier for its pass. -/
def preparedSession : Session Unit := start.session.withSlot none

theorem prepare_training : (⟨training, entry⟩ : Workflow Unit).prepare .empty training
    { world := .initial, memory := () } = (.ok (), prepared, preparedSession) :=
  Pipeline.prepareBy_eq_ok_iff.2 ⟨by decide +kernel, rfl, _, _, _, rfl, run_entry, rfl, rfl⟩

/-- The last step depends on both steps before it. -/
theorem wellFormed_compileWith_training :
    ∃ s, (⟨training, entry⟩ : Workflow Unit).prepare .empty training
        { world := .initial, memory := () } = (.ok (), prepared, s)
      ∧ prepared.compileWith .standard (.recording (.ofNat 1)) ∅ = .ok compiled
      ∧ ∃ i step, prepared.invocations[2]? = some i ∧ compiled.1.steps[2]? = some step
        ∧ step.spec.predecessors = ["loader", "trainer"]
        ∧ step.WellFormed i ["loader", "trainer"] := by
  have hcompile : prepared.compileWith .standard (.recording (.ofNat 1)) ∅ = .ok compiled := rfl
  obtain ⟨-, -, -, hsteps⟩ := Workflow.wellFormed_compileWith prepare_training rfl hcompile
  exact ⟨_, prepare_training, hcompile, _, _, rfl, rfl, rfl, hsteps 2 _ _ rfl rfl⟩

end Sample

end Pipework
