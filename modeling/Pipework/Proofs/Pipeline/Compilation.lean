import Pipework.Pipeline.Compilation
import Pipework.Proofs.Traversal

/-!
# Compiled pipelines

A pipeline compiles if and only if a few checks succeed and each of its invocations compiles
(`Pipeline.compileWith_eq_ok_iff`). The steps of the deployment then stand in the order of the
invocations and have their ids.
-/

namespace Pipework

namespace Invocation

/-- The step with these parameters and outputs. -/
def stepWith (i : Invocation) (c : PipelineConfiguration) (override : Option StepLayer)
    (parameters : Dict Json) (outputs : Dict OutputConfiguration) : DeploymentStep where
  spec := i.spec
  config := { StepConfiguration.ofLayer i.id { i.layers c override with parameters } with
    outputs
    externalInputs := i.externals.map ExternalArtifact.resolve }

theorem compile_eq_ok_iff {i : Invocation} {c : PipelineConfiguration}
    {override : Option StepLayer} {materializers : Materializers} {stackKeys : List String}
    {step : DeploymentStep} :
    i.compile c override materializers stackKeys = .ok step ↔
      SettingKey.validate c.name (i.layers c override).settings.keys (some stackKeys) = .ok ()
      ∧ ∃ parameters outputs,
        i.resolveParameters c.name (i.layers c override).parameters = .ok parameters
        ∧ i.resolveOutputs c.name materializers (i.layers c override).outputs = .ok outputs
        ∧ step = i.stepWith c override parameters outputs := by
  simp only [compile, bind_eq_ok_iff]
  constructor
  · rintro ⟨_, hsettings, parameters, hparameters, outputs, houtputs, hstep⟩
    exact ⟨hsettings, parameters, outputs, hparameters, houtputs, (Except.ok.inj hstep).symm⟩
  · rintro ⟨hsettings, parameters, outputs, hparameters, houtputs, rfl⟩
    exact ⟨(), hsettings, parameters, hparameters, outputs, houtputs, rfl⟩

/-- The step of a deployment takes its place and its id from the invocation. -/
theorem spec_of_compile {i : Invocation} {c : PipelineConfiguration} {override : Option StepLayer}
    {materializers : Materializers} {stackKeys : List String} {step : DeploymentStep}
    (h : i.compile c override materializers stackKeys = .ok step) :
    step.spec = i.spec ∧ step.config.name = i.id := by
  obtain ⟨-, parameters, outputs, -, -, rfl⟩ := compile_eq_ok_iff.1 h
  exact ⟨rfl, rfl⟩

end Invocation

namespace Pipeline

variable {p : Pipeline} {materializers : Materializers} {stack : Stack} {run : RunConfiguration}
  {d : Deployment} {spec : Spec}

/-- The configuration of the pipeline with what a run sets on top. -/
def configurationFor (p : Pipeline) (run : RunConfiguration) : PipelineConfiguration :=
  p.configuration.updated run.pipelineLayer .merge

/-- The deployment and the spec that have these steps. -/
def outcomeOf (p : Pipeline) (stack : Stack) (run : RunConfiguration)
    (steps : List DeploymentStep) : Deployment × Spec :=
  ({ runNameTemplate := run.runName.getD (RunName.default p.name)
     configuration := p.configurationFor run
     steps
     parameters := p.arguments
     stack := stack.id
     schedule := run.schedule
     build := run.build
     clientVersion := Deployment.libraryVersion },
   { version := Spec.currentVersion
     source := p.definition.source
     parameters := p.arguments
     steps := steps.map (·.spec) })

/-- What a pipeline has to pass to compile to these steps. -/
structure Compiles (p : Pipeline) (materializers : Materializers) (stack : Stack)
    (run : RunConfiguration) (g : Graph) (steps : List DeploymentStep) : Prop where
  graph : p.graph = some g
  settings : SettingKey.validate p.name (p.configurationFor run).settings.keys
    (some stack.settingKeys.keys) = .ok ()
  overrides : ∀ id ∈ run.steps.keys, g.contains id = true
  schedule : checkSchedule p.name run = .ok ()
  steps : List.Forall₂ (fun i step => i.compile (p.configurationFor run) (run.steps.get? i.id)
    materializers stack.settingKeys.keys = .ok step) g.invocations.toList steps

theorem compileWith_eq_ok_iff :
    p.compileWith materializers stack run = .ok (d, spec)
      ↔ ∃ g steps, p.Compiles materializers stack run g steps
        ∧ (d, spec) = p.outcomeOf stack run steps := by
  rw [compileWith]
  cases hgraph : p.graph with
  | none =>
    constructor
    · intro h
      cases h
    · rintro ⟨g, steps, h, -⟩
      cases hgraph.symm.trans h.graph
  | some g =>
    simp only [pure_bind, bind_eq_ok_iff]
    constructor
    · rintro ⟨_, hsettings, h⟩
      cases hoverrides : run.steps.keys.find? fun id => !g.contains id with
      | some id =>
        rw [hoverrides] at h
        cases h
      | none =>
        rw [hoverrides] at h
        simp only [bind_eq_ok_iff, mapM_eq_ok_iff] at h
        obtain ⟨_, hschedule, steps, hsteps, houtcome⟩ := h
        refine ⟨g, steps, ⟨hgraph, hsettings, ?_, hschedule, hsteps⟩, (Except.ok.inj houtcome).symm⟩
        simpa using hoverrides
    · rintro ⟨g', steps, h, houtcome⟩
      cases hgraph.symm.trans h.graph
      have hoverrides : (run.steps.keys.find? fun id => !g.contains id) = none := by
        simpa using h.overrides
      refine ⟨(), h.settings, ?_⟩
      rw [hoverrides]
      simp only [bind_eq_ok_iff, mapM_eq_ok_iff]
      exact ⟨(), h.schedule, steps, h.steps, congrArg Except.ok houtcome.symm⟩

/-- A deployment is for the stack that it was compiled for, and under the name of the pipeline. -/
theorem stack_of_compile (h : p.compile materializers stack = .ok (d, spec)) :
    d.stack = stack.id ∧ d.configuration.name = p.configuration.name := by
  obtain ⟨run, -, hcompile⟩ := bind_eq_ok_iff.1 h
  obtain ⟨g, steps, -, houtcome⟩ := compileWith_eq_ok_iff.1 hcompile
  cases houtcome
  exact ⟨rfl, rfl⟩

namespace Compiles

variable {g : Graph} {steps : List DeploymentStep}
  (h : p.Compiles materializers stack run g steps)
include h

theorem spec_eq : steps.map (·.spec) = g.invocations.toList.map Invocation.spec := by
  refine (forall₂_eq_iff.1 (h.steps.imp fun i step hstep => ?_)).symm
  exact (Invocation.spec_of_compile hstep).1.symm

theorem names_eq : steps.map (·.config.name) = g.ids := by
  refine (forall₂_eq_iff.1 (h.steps.imp fun i step hstep => ?_)).symm
  exact (Invocation.spec_of_compile hstep).2.symm

end Compiles

end Pipeline

end Pipework
