import Pipework.Proofs.CacheKey.Deployment
import Pipework.Proofs.Pipeline.Compilation
import Pipework.Proofs.Program.Preparation
import Pipework.Proofs.Registration.Race
import Pipework.Proofs.VersionHash.Text
import Pipework.Sample.Training

/-!
# The identity of compiled pipelines

A pipeline that compiles has a version hash and a cache key for each of its steps. The steps of the
deployment are the invocations of a coherent graph, which knows the source text of each of them, and
the order of the invocations is one in which each key is computed after those it depends on.
-/

namespace Pipework

open CacheKey

/-- All that an invocation depends on, be it through its inputs, stands before it. -/
theorem Graph.Coherent.exists_earlier {g : Graph} (hg : g.Coherent) {i : Invocation}
    (hi : i ∈ g.invocations) :
    ∃ n : Nat, g.ids[n]? = some i.id
      ∧ ∀ p, p ∈ i.spec.predecessors ∨ (∃ input ∈ i.spec.inputs.values, input.producer = p) →
        ∃ m < n, g.ids[m]? = some p := by
  obtain ⟨n, hn⟩ := Array.mem_iff_getElem?.1 hi
  refine ⟨n, by rw [g.getElem?_ids, hn, Option.map_some], fun p hp => hg.earlier n i hn p ?_⟩
  rcases hp with hp | ⟨input, hinput, rfl⟩
  · exact hp
  · rw [Invocation.spec, Dict.values_map] at hinput
    obtain ⟨artifact, hartifact, rfl⟩ := List.mem_map.1 hinput
    exact hg.producers i hi artifact hartifact

namespace Pipeline

variable {p : Pipeline} {materializers : Materializers} {stack : Stack} {run : RunConfiguration}
  {g : Graph} {steps : List DeploymentStep}

theorem stepSource?_of_mem (hgraph : p.graph = some g) (hg : g.Coherent) {i : Invocation}
    (hi : i ∈ g.invocations) : p.stepSource? i.id = some i.step.sourceCode := by
  rw [stepSource?, hgraph, Option.bind_some, hg.get?_eq_some_iff.2 ⟨hi, rfl⟩, Option.map_some]

/-- The source text of a step, empty where the pipeline has no such step. -/
def stepText (p : Pipeline) (id : String) : String := (p.stepSource? id).getD ""

namespace Compiles

variable (h : p.Compiles materializers stack run g steps)
include h

/-- Each step of the deployment is that of an invocation. -/
theorem exists_invocation {step : DeploymentStep} (hstep : step ∈ steps) :
    ∃ i ∈ g.invocations, step.spec = i.spec ∧ step.config.name = i.id := by
  obtain ⟨i, hi, hcompile⟩ := exists_mem_of_forall₂ h.steps hstep
  exact ⟨i, Array.mem_def.2 hi, Invocation.spec_of_compile hcompile⟩

variable (hg : g.Coherent)
include hg

theorem exists_versionHash :
    ∃ hash, p.versionHash (p.outcomeOf stack run steps).2 = .ok hash := by
  have hsteps : (p.outcomeOf stack run steps).2.steps = g.invocations.toList.map Invocation.spec :=
    h.spec_eq
  have htexts : (p.outcomeOf stack run steps).2.stepSources p.stepSource?
      = (g.invocations.toList.map (·.step.sourceCode)).map some := by
    rw [Spec.stepSources, hsteps, List.map_map, List.map_map]
    exact List.map_congr_left fun i hi => stepSource?_of_mem h.graph hg (Array.mem_def.2 hi)
  exact Spec.exists_versionHash _ _ htexts

/-- A step depends only on steps that stand before it. -/
theorem exists_earlier_of_dependsOn {text : String → String} {a b : String}
    (hdepends : DependsOn (Engine.deploymentInputs (p.outcomeOf stack run steps).1 text) a b) :
    ∃ n : Nat, g.ids[n]? = some a ∧ ∃ m < n, g.ids[m]? = some b := by
  obtain ⟨inputs, hinputs, hb⟩ := hdepends
  obtain ⟨step, hstep, rfl, rfl⟩ := Engine.exists_step_of_get? hinputs
  obtain ⟨i, hi, hspec, hid⟩ := h.exists_invocation hstep
  obtain ⟨n, hn, hearlier⟩ := hg.exists_earlier hi
  rw [Engine.mem_dependencies_inputsOf, hspec] at hb
  exact ⟨n, by rw [hid, hn], hearlier b hb⟩

omit hg in
theorem mem_keys_deploymentInputs {text : String → String} {id : String} :
    id ∈ (Engine.deploymentInputs (p.outcomeOf stack run steps).1 text).keys ↔ id ∈ g.ids := by
  rw [Engine.mem_keys_deploymentInputs, ← h.names_eq]
  rfl

theorem acyclic (text : String → String) :
    Acyclic (Engine.deploymentInputs (p.outcomeOf stack run steps).1 text) := by
  -- The rank of a step is the position of its invocation.
  refine acyclic_of_rank (fun id => g.index[id]?.getD 0) fun a b hdepends => ?_
  obtain ⟨n, hn, m, hlt, hm⟩ := h.exists_earlier_of_dependsOn hg hdepends
  rw [(hg.index a n).2 hn, (hg.index b m).2 hm]
  exact hlt

theorem closed (text : String → String) :
    Closed (Engine.deploymentInputs (p.outcomeOf stack run steps).1 text) := by
  intro a b hdepends
  obtain ⟨n, -, m, -, hm⟩ := h.exists_earlier_of_dependsOn hg hdepends
  exact Dict.mem_keys_iff.1 (h.mem_keys_deploymentInputs.2 (List.mem_of_getElem? hm))

theorem exists_cacheKeys :
    ∃ keys, Coordinator.cacheKeys p (p.outcomeOf stack run steps).1 = .ok keys
      ∧ keys.keys.Perm g.ids := by
  have htexts : ∀ step ∈ (p.outcomeOf stack run steps).1.steps,
      p.stepSource? step.config.name = some (p.stepText step.config.name) := by
    intro step hstep
    obtain ⟨i, hi, -, hid⟩ := h.exists_invocation hstep
    rw [stepText, hid, stepSource?_of_mem h.graph hg hi, Option.getD_some]
  obtain ⟨e, hofDeployment, hreachable, hsteps⟩ := Engine.exists_ofDeployment htexts
  obtain ⟨keys, hkeys, hids, -⟩ := hreachable.allKeys_ok (hsteps ▸ h.acyclic hg _)
    (hsteps ▸ h.closed hg _)
  refine ⟨keys, ?_, (List.perm_ext_iff_of_nodup keys.nodup_keys hg.nodup).2 fun id => ?_⟩
  · rw [Coordinator.cacheKeys, hofDeployment]
    exact hkeys
  · rw [hids, hsteps, h.mem_keys_deploymentInputs]

end Compiles

end Pipeline

namespace Workflow

variable {σ : Type}

/-- However a workflow has been prepared and configured afterwards: if it compiles, then it has a
version hash and exactly one cache key for each step of the deployment, under the id of the
invocation. -/
theorem exists_versionHash_and_cacheKeys {w : Workflow σ} {p p' q : Pipeline} {s s' : Session σ}
    {arguments : Dict Json} {materializers : Materializers} {stack : Stack}
    {run : RunConfiguration} {d : Deployment} {spec : Spec}
    (hprepare : w.prepare arguments p s = (.ok (), p', s')) (hgraph : q.graph = p'.graph)
    (hcompile : q.compileWith materializers stack run = .ok (d, spec)) :
    (∃ hash, q.versionHash spec = .ok hash)
    ∧ ∃ keys, Coordinator.cacheKeys q d = .ok keys
      ∧ d.steps.map (·.config.name) = q.invocations.map (·.id)
      ∧ keys.keys.Perm (q.invocations.map (·.id)) := by
  obtain ⟨g, hg, hcoherent⟩ := exists_coherent_graph hprepare
  obtain ⟨g', steps, h, houtcome⟩ := Pipeline.compileWith_eq_ok_iff.1 hcompile
  cases hg.symm.trans (hgraph.symm.trans h.graph)
  cases houtcome
  have hinvocations : q.invocations.map (·.id) = g.ids := by
    rw [Pipeline.invocations, h.graph, Graph.ids]
  obtain ⟨keys, hkeys, hperm⟩ := h.exists_cacheKeys hcoherent
  rw [hinvocations]
  exact ⟨h.exists_versionHash hcoherent, keys, hkeys, h.names_eq, hperm⟩

end Workflow

namespace Sample

variable {σ : Type}

/-- A call of a step that succeeds goes on with the output. -/
theorem run_callStep {draft : Except Error Step} {step : Step}
    {request : Step → InvocationRequest} {output : String} {next : Artifact → Program σ}
    {s : Scene σ} {g : Graph} {outputs : StepOutputs} {artifact : Artifact}
    (hstep : draft = .ok step)
    (hcall : s.graph.call s.session.world.slot (request step) = .ok (g, outputs))
    (houtput : outputs.get output = .ok artifact) :
    (callStep draft request output next).run s = (next artifact).run { s with graph := g } := by
  have hbind : Except.bind (.ok outputs) (·.get output) = .ok artifact := houtput
  simp only [hstep, callStep, Program.run, hcall]
  rw [hbind]

/-- The pipeline starts in a session in which nothing has happened yet. -/
def start : Scene Unit := training.opening { world := .initial, memory := () }

def artifact (producer output : String) : Artifact :=
  { producer, output, pipeline := training.name, pass := start.graph.pass }

def loading : InvocationRequest where
  step := loader.toOption.get (by decide +kernel)
  parameters := .ofList [("rows", .ofNat 100)]

def learning : InvocationRequest where
  step := trainer.toOption.get (by decide +kernel)
  inputs := .ofList [("dataset", artifact "loader" "dataset")]

def evaluation : InvocationRequest where
  step := evaluator.toOption.get (by decide +kernel)
  inputs := .ofList
    [("model", artifact "trainer" "model"), ("dataset", artifact "loader" "dataset")]

def loaded : Graph := start.graph.push (.ofRequest "loader" loading)

def learned : Graph := loaded.push (.ofRequest "trainer" learning)

def evaluated : Graph := learned.push (.ofRequest "evaluator" evaluation)

theorem call_loading : start.graph.call start.session.world.slot loading
    = .ok (loaded, .ofOutputs "loader" training.name start.graph.pass
      loading.step.signature.outputs) :=
  (training.coherent_opening _).call_ok rfl rfl (by decide +kernel) (by decide +kernel)
    (by decide +kernel)

theorem run_entry : (entry (.ofList [("rows", .ofNat 100)])).run start
    = (.ok (.ofNat 100), { start with graph := evaluated }) := by
  have hstart : start.graph.Coherent := training.coherent_opening _
  have hloaded : loaded.Coherent := hstart.call call_loading
  have hlearn : loaded.call start.session.world.slot learning = .ok (learned, _) :=
    hloaded.call_ok rfl rfl (by decide +kernel) (by decide +kernel) (by decide +kernel)
  have hevaluate : learned.call start.session.world.slot evaluation = .ok (evaluated, _) :=
    (hloaded.call hlearn).call_ok rfl rfl (by decide +kernel) (by decide +kernel)
      (by decide +kernel)
  have hloader : loader = .ok loading.step := rfl
  have htrainer : trainer = .ok learning.step := rfl
  have hevaluator : evaluator = .ok evaluation.step := rfl
  have hdataset : StepOutputs.get (.ofOutputs _ _ _ loading.step.signature.outputs) "dataset"
      = .ok (artifact "loader" "dataset") := rfl
  have hmodel : StepOutputs.get (.ofOutputs _ _ _ learning.step.signature.outputs) "model"
      = .ok (artifact "trainer" "model") := rfl
  rw [entry, run_callStep hloader call_loading hdataset, run_callStep htrainer hlearn hmodel,
    run_callStep hevaluator hevaluate rfl]
  rfl

/-- The pipeline after its preparation. -/
def prepared : Pipeline :=
  { training with graph := evaluated, arguments := .ofList [("rows", .ofNat 100)] }

/-- The deployment of the pipeline on a local stack, and its spec. -/
def compiled : Deployment × Spec :=
  (prepared.compileWith .standard (.recording (.ofNat 1)) ∅).toOption.get (by decide +kernel)

theorem exists_versionHash_and_cacheKeys_training :
    ∃ s, (⟨training, entry⟩ : Workflow Unit).prepare .empty training
        { world := .initial, memory := () } = (.ok (), prepared, s)
      ∧ prepared.compileWith .standard (.recording (.ofNat 1)) ∅ = .ok compiled
      ∧ (∃ hash, prepared.versionHash compiled.2 = .ok hash)
      ∧ ∃ keys, Coordinator.cacheKeys prepared compiled.1 = .ok keys
        ∧ keys.keys.Perm ["loader", "trainer", "evaluator"] := by
  obtain ⟨s, hprepare⟩ : ∃ s, (⟨training, entry⟩ : Workflow Unit).prepare .empty training
      { world := .initial, memory := () } = (.ok (), prepared, s) :=
    ⟨_, Pipeline.prepareBy_eq_ok_iff.2
      ⟨by decide +kernel, rfl, _, _, _, rfl, run_entry, rfl, rfl⟩⟩
  have hcompile : prepared.compileWith .standard (.recording (.ofNat 1)) ∅ = .ok compiled := rfl
  obtain ⟨hhash, keys, hkeys, -, hperm⟩ :=
    Workflow.exists_versionHash_and_cacheKeys hprepare rfl hcompile
  exact ⟨s, hprepare, hcompile, hhash, keys, hkeys, hperm⟩

end Sample

end Pipework
