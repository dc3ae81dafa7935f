import Pipework.Proofs.Graph.Naming
import Pipework.Proofs.Pipeline.Structure

/-!
# Wiring

An input of a step refers to an output of another step by the id of the one and the name of the
other. A graph makes sure that the id is that of an earlier invocation and takes the name as it is
given, and so does compilation. A deployment has only inputs that lead to declared outputs if and
only if all requests that its graph has accepted name such outputs (`Thread.wired_run_iff`), as they
do when they pass on what calls have given (`Graph.Composed.wired`).
-/

namespace Pipework

/-- What a step takes from other steps and gives to them. -/
structure Ports where
  id : String
  /-- The outputs that feed the inputs. -/
  inputs : List InputSpec
  /-- The names of the outputs that are declared. -/
  outputs : List String

/-- One of these steps has the output and declares it. -/
def InputSpec.LeadsInto (input : InputSpec) (steps : List Ports) : Prop :=
  ∃ producer ∈ steps, producer.id = input.producer ∧ input.output ∈ producer.outputs

/-- All inputs lead to outputs that earlier steps declare. -/
def Wired (steps : List Ports) : Prop :=
  ∀ earlier step, earlier ++ [step] <+: steps → ∀ input ∈ step.inputs, input.LeadsInto earlier

theorem InputSpec.LeadsInto.append {input : InputSpec} {steps : List Ports}
    (h : input.LeadsInto steps) (later : List Ports) : input.LeadsInto (steps ++ later) := by
  obtain ⟨producer, hproducer, hleads⟩ := h
  exact ⟨producer, List.mem_append_left later hproducer, hleads⟩

theorem wired_nil : Wired [] := forall_prefix_nil

theorem wired_concat {steps : List Ports} {step : Ports} :
    Wired (steps ++ [step]) ↔ Wired steps ∧ ∀ input ∈ step.inputs, input.LeadsInto steps :=
  forall_prefix_concat_iff

/-! ## Graphs -/

/-- How a step refers to an artifact. -/
def Artifact.reference (a : Artifact) : InputSpec where
  producer := a.producer
  output := a.output

def Invocation.ports (i : Invocation) : Ports where
  id := i.id
  inputs := i.spec.inputs.values
  outputs := i.step.signature.outputs.keys

def Graph.ports (g : Graph) : List Ports := g.invocations.toList.map (·.ports)

theorem Invocation.inputs_ports (i : Invocation) :
    i.ports.inputs = i.inputs.values.map (·.reference) :=
  Dict.values_map _ _

namespace Graph

variable {g g' : Graph} {slot : Slot} {r : InvocationRequest}

@[simp] theorem ports_push (g : Graph) (i : Invocation) :
    (g.push i).ports = g.ports ++ [i.ports] := by
  simp [ports, push]

/-- An input comes from the pass of the graph and from an invocation before the one it is for. -/
theorem Coherent.producer_mem (h : g.Coherent) {before : List Invocation} {i : Invocation}
    (hp : before ++ [i] <+: g.invocations.toList) :
    ∀ a ∈ i.inputs.values, a.pass = g.pass ∧ a.producer ∈ before.map (·.id) := by
  intro a ha
  obtain ⟨later, hlater⟩ := hp
  have hi : g.invocations[before.length]? = some i := by
    rw [← Array.getElem?_toList, ← hlater]
    simp
  have hids : g.ids.take before.length = before.map (·.id) := by
    rw [ids, ← hlater]
    simp
  have hmem : i ∈ g.invocations := Array.mem_of_getElem? hi
  rw [← hids]
  exact ⟨h.native i hmem a ha, h.mem_take_ids hi _ (h.producers i hmem a ha)⟩

/-- The artifacts that a call gives lead to declared outputs. -/
theorem leadsInto_of_call {outputs : StepOutputs} (h : g.call slot r = .ok (g', outputs)) :
    ∀ a ∈ outputs.artifacts.values, a.reference.LeadsInto g'.ports := by
  obtain ⟨-, id, hadd, rfl⟩ := call_eq_ok_iff.1 h
  obtain ⟨-, rfl⟩ := add_eq_ok_iff.1 hadd
  intro a ha
  obtain ⟨e, he, rfl⟩ : ∃ e ∈ r.step.signature.outputs.entries,
      { producer := id, output := e.1, pipeline := g.pipeline, pass := g.pass } = a := by
    simpa [StepOutputs.ofOutputs, Dict.values, Dict.mapWithKey] using ha
  refine ⟨(Invocation.ofRequest id r).ports, by simp, rfl, ?_⟩
  exact List.mem_map_of_mem he

/-- A call that is given artifacts which lead to declared outputs keeps a graph wired, and what it
gives can be given to later calls. -/
theorem wired_call {known : List Artifact} {outputs : StepOutputs} (hwired : Wired g.ports)
    (hknown : ∀ a ∈ known, a.reference.LeadsInto g.ports)
    (hinputs : ∀ a ∈ r.inputs.values, a ∈ known) (h : g.call slot r = .ok (g', outputs)) :
    Wired g'.ports
    ∧ ∀ a ∈ known ++ outputs.artifacts.values, a.reference.LeadsInto g'.ports := by
  have hgiven := leadsInto_of_call h
  obtain ⟨-, id, hadd, -⟩ := call_eq_ok_iff.1 h
  obtain ⟨-, rfl⟩ := add_eq_ok_iff.1 hadd
  rw [ports_push] at hgiven ⊢
  constructor
  · refine wired_concat.2 ⟨hwired, ?_⟩
    rw [Invocation.inputs_ports, List.forall_mem_map]
    intro a ha
    exact hknown a (hinputs a ha)
  · intro a ha
    rcases List.mem_append.1 ha with ha | ha
    · exact (hknown a ha).append _
    · exact hgiven a ha

/-- A graph that is built by calls, and the artifacts that they have given. Each call is given
artifacts of earlier ones. -/
inductive Composed : Graph → List Artifact → Prop where
  | new (pipeline : String) (pass : Uuid) (detached : Bool) :
    Composed { pipeline, pass, detached } []
  | call {g g' : Graph} {known : List Artifact} {slot : Slot} {r : InvocationRequest}
    {outputs : StepOutputs} (composed : Composed g known)
    (inputs : ∀ a ∈ r.inputs.values, a ∈ known) (accepted : g.call slot r = .ok (g', outputs)) :
    Composed g' (known ++ outputs.artifacts.values)

/-- Where steps are fed with what calls have given, all inputs lead to declared outputs. -/
theorem Composed.wired {known : List Artifact} (h : g.Composed known) :
    Wired g.ports ∧ ∀ a ∈ known, a.reference.LeadsInto g.ports := by
  induction h with
  | new pipeline pass detached => exact ⟨wired_nil, List.forall_mem_nil _⟩
  | call composed inputs accepted ih => exact wired_call ih.1 ih.2 inputs accepted

end Graph

/-! ## Deployments -/

def DeploymentStep.ports (step : DeploymentStep) : Ports where
  id := step.spec.id
  inputs := step.spec.inputs.values
  outputs := step.config.outputs.keys

def Deployment.ports (d : Deployment) : List Ports := d.steps.map (·.ports)

theorem Invocation.ports_of_compile {i : Invocation} {c : PipelineConfiguration}
    {override : Option StepLayer} {materializers : Materializers} {stackKeys : List String}
    {step : DeploymentStep} (h : i.compile c override materializers stackKeys = .ok step) :
    step.ports = i.ports := by
  obtain ⟨-, parameters, outputs, -, houtputs, rfl⟩ := compile_eq_ok_iff.1 h
  have hkeys : outputs.keys = i.step.signature.outputs.keys := by
    rw [← typeNames_of_resolveOutputs houtputs, Dict.keys_map]
  rw [DeploymentStep.ports, ports, ← hkeys]
  rfl

/-- A deployment is wired as the graph that it is compiled from. -/
theorem Pipeline.ports_compileWith {p : Pipeline} {materializers : Materializers} {stack : Stack}
    {run : RunConfiguration} {g : Graph} {d : Deployment} {spec : Spec} (hgraph : p.graph = some g)
    (h : p.compileWith materializers stack run = .ok (d, spec)) :
    d.ports = g.ports ∧ spec.steps = d.steps.map (·.spec) := by
  obtain ⟨g', steps, hcompiles, houtcome⟩ := compileWith_eq_ok_iff.1 h
  cases hgraph.symm.trans hcompiles.graph
  cases houtcome
  refine ⟨(forall₂_eq_iff.1 (hcompiles.steps.imp fun i step hstep => ?_)).symm, rfl⟩
  exact (Invocation.ports_of_compile hstep).symm

/-! ## Runs -/

namespace Thread

variable {t : Thread} {place : Nat} {g : Graph} {op : Op} {ops : List Op}

/-- What the invocations of the graph at a place take and give. -/
def ports (t : Thread) (place : Nat) : List Ports := (t.invocations place).map (·.ports)

/-- What an operation adds to the graph at a place has inputs from declared outputs only. -/
def Connects (t : Thread) (place : Nat) (op : Op) : Prop :=
  ∀ r id, t.granted? place op = some (r, id) →
    ∀ a ∈ r.inputs.values, a.reference.LeadsInto (t.ports place)

theorem ports_of_getElem? (h : t.graphs[place]? = some g) : t.ports place = g.ports := by
  rw [ports, invocations, h]
  rfl

theorem wired_step_iff :
    Wired ((t.step op).2.ports place) ↔ Wired (t.ports place) ∧ t.Connects place op := by
  rw [ports, invocations_step, List.map_append, Connects]
  cases t.granted? place op with
  | none => simp [ports]
  | some e =>
    obtain ⟨r, id⟩ := e
    have hinputs : (Invocation.ofRequest id r).ports.inputs = r.inputs.values.map (·.reference) :=
      Invocation.inputs_ports _
    refine wired_concat.trans (and_congr_right fun _ => ?_)
    simp [hinputs, ports]

/-- A graph is wired if and only if each operation connects what it adds. -/
theorem wired_ports_run_iff :
    Wired ((run {} ops).ports place)
      ↔ ∀ before op, before ++ [op] <+: ops → (run {} before).Connects place op := by
  induction ops using List.reverseRecOn with
  | nil => exact iff_of_true wired_nil forall_prefix_nil
  | append_singleton ops op ih => rw [run_concat, wired_step_iff, ih, forall_prefix_concat_iff]

/-- Each input of each invocation comes from an earlier invocation of the same pass. It leads to an
output that this invocation declares, everywhere in the graph, if and only if that holds for each
request at the time when it is accepted. A deployment that is compiled from the graph has the same
inputs and the same outputs, so it is wired if and only if the graph is. -/
theorem wired_run_iff (ops : List Op) (hg : (run {} ops).graphs[place]? = some g) :
    (∀ before i, before ++ [i] <+: g.invocations.toList →
      ∀ a ∈ i.inputs.values, a.pass = g.pass ∧ a.producer ∈ before.map (·.id))
    ∧ (Wired g.ports ↔ ∀ before op, before ++ [op] <+: ops → (run {} before).Connects place op)
    ∧ ∀ (p : Pipeline) (materializers : Materializers) (stack : Stack) (c : RunConfiguration)
        (d : Deployment) (spec : Spec),
        p.graph = some g → p.compileWith materializers stack c = .ok (d, spec) →
        d.ports = g.ports ∧ spec.steps = d.steps.map (·.spec) := by
  refine ⟨?_, ?_, ?_⟩
  · intro before i hp
    exact (coherent_of_mem_run (List.mem_of_getElem? hg)).producer_mem hp
  · rw [← ports_of_getElem? hg]
    exact wired_ports_run_iff
  · intro p materializers stack c d spec hgraph hcompile
    exact Pipeline.ports_compileWith hgraph hcompile

end Thread

namespace Sample

/-- The trainer asks for an output that the loader does not have. -/
def misled : InvocationRequest :=
  { learning with inputs := .ofList [("dataset", artifact "loader" "labels")] }

def miswired : Graph := loaded.push (.ofRequest "trainer" misled)

def miswiring : List Thread.Op :=
  [.new training.name start.graph.pass false, .enter training.name start.graph.pass,
    .add 0 loading, .add 0 misled]

theorem run_miswiring : (Thread.run {} miswiring).graphs = [miswired] := by
  have hloaded : loaded.Coherent := (training.coherent_opening _).call call_loading
  have hmislead : loaded.call start.session.world.slot misled = .ok (miswired, _) :=
    hloaded.call_ok rfl rfl (by decide +kernel) (by decide +kernel) (by decide +kernel)
  obtain ⟨-, loader, hload, -⟩ := Graph.call_eq_ok_iff.1 call_loading
  obtain ⟨-, trainer, hmislead, -⟩ := Graph.call_eq_ok_iff.1 hmislead
  let opened : Thread :=
    { graphs := [start.graph], slot := start.session.world.slot, held := [start.graph.pass] }
  change (((opened.step (.add 0 loading)).2.step (.add 0 misled)).2).graphs = _
  simp [opened, Thread.step, hload, hmislead]

theorem not_wired_miswired : ¬ Wired miswired.ports := by
  have hports : miswired.ports = [(Invocation.ofRequest "loader" loading).ports]
      ++ [(Invocation.ofRequest "trainer" misled).ports] := rfl
  rw [hports, wired_concat]
  rintro ⟨-, h⟩
  obtain ⟨producer, hmem, -, houtput⟩ := h ⟨"loader", "labels"⟩ (by decide +kernel)
  rw [List.mem_singleton.1 hmem] at houtput
  exact absurd houtput (by decide +kernel)

def misprepared : Pipeline := { prepared with graph := some miswired }

/-- The deployment of the pipeline on a local stack, and its spec. -/
def miscompiled : Deployment × Spec :=
  (misprepared.compileWith .standard (.recording (.ofNat 1)) ∅).toOption.get (by decide +kernel)

/-- The request is accepted, and the pipeline compiles with an input that leads nowhere. -/
theorem wired_run_iff_miswired :
    (Thread.run {} miswiring).graphs[0]? = some miswired
    ∧ (∃ before op, before ++ [op] <+: miswiring ∧ ¬ (Thread.run {} before).Connects 0 op)
    ∧ misprepared.compileWith .standard (.recording (.ofNat 1)) ∅ = .ok miscompiled
    ∧ ¬ Wired miscompiled.1.ports := by
  have hgraph : (Thread.run {} miswiring).graphs[0]? = some miswired := by
    rw [run_miswiring]
    rfl
  have hcompile : misprepared.compileWith .standard (.recording (.ofNat 1)) ∅ = .ok miscompiled :=
    rfl
  obtain ⟨-, hwired, hcompiled⟩ := Thread.wired_run_iff miswiring hgraph
  obtain ⟨hports, -⟩ := hcompiled misprepared _ _ _ miscompiled.1 miscompiled.2 rfl hcompile
  refine ⟨hgraph, ?_, hcompile, ?_⟩
  · have hconnects := mt hwired.2 not_wired_miswired
    push Not at hconnects
    exact hconnects
  · rw [hports]
    exact not_wired_miswired

/-- A graph may have an input that leads to no output of any step. -/
theorem not_forall_wired_run :
    ¬ ∀ (ops : List Thread.Op) (place : Nat) (g : Graph),
      (Thread.run {} ops).graphs[place]? = some g → Wired g.ports := by
  intro h
  refine not_wired_miswired (h miswiring 0 miswired ?_)
  rw [run_miswiring]
  rfl

end Sample

end Pipework
