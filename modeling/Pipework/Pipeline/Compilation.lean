import Pipework.Config.RunName
import Pipework.Deployment.Basic
import Pipework.Identity.VersionHash
import Pipework.Pipeline.Basic
import Pipework.Stack
import Pipework.Step.Materializers

/-!
# Compilation

A prepared pipeline, a stack and a run configuration give a deployment and a spec. The
configuration of a step is layered from its defaults, the pipeline with the run on top, the
override of the run for that step, and the call.
-/

namespace Pipework

/-- What a run sets for the whole pipeline. -/
def RunConfiguration.pipelineLayer (r : RunConfiguration) : PipelineLayer where
  toggles := r.toggles
  settings := if r.settings.isEmpty then none else some r.settings
  extra := if r.extra.isEmpty then none else some r.extra

/-- What a pipeline sets for each of its steps. -/
def PipelineConfiguration.stepLayer (c : PipelineConfiguration) : StepLayer where
  toggles := c.toggles
  settings := c.settings
  extra := c.extra

namespace Invocation

/-- All layers of an invocation in one. Hooks of the pipeline stand in for hooks that no layer sets,
and parameters of the call replace those of the layers. -/
def layers (i : Invocation) (c : PipelineConfiguration) (override : Option StepLayer) : StepLayer :=
  let l := i.step.defaults.layered c.stepLayer
  let l := match override with
    | some o => l.layered o
    | none => l
  let l := l.layered i.configuration
  { l with
    parameters := l.parameters.insertMany i.parameters.entries
    hooks := c.hooks.override l.hooks }

/-- The place of the invocation in its pipeline. -/
def spec (i : Invocation) : StepSpec where
  source := i.step.source
  predecessors := i.predecessors.keys
  inputs := i.inputs.map fun artifact =>
    { producer := artifact.producer, output := artifact.output }
  id := i.id

/-- The values of all parameters. -/
def resolveParameters (i : Invocation) (pipeline : String) (given : Dict Json) :
    Except Error (Dict Json) :=
  let invalid (message : String) : Error :=
    .configuration (.invalidStepInputs pipeline i.id message)
  match given.firstUnknown? i.step.signature.parameters with
  | some name => .error (invalid ("the step has no parameter named " ++ quoted name))
  | none => match given.withDefaults i.step.signature.parameters with
    | .ok parameters => .ok parameters
    | .error name => .error (invalid ("missing value for parameter " ++ quoted name))

/-- The type and materializer of an output: the materializer of the layers, or else the default one
of the type. -/
def resolveOutput (i : Invocation) (pipeline : String) (materializers : Materializers)
    (layered : Dict OutputLayer) (output typeName : String) : Except Error OutputConfiguration :=
  match ((layered.get? output).bind (·.materializer)).or (materializers.find? typeName) with
  | some materializer => .ok { typeName, materializer }
  | none => .error (.configuration (.missingMaterializer pipeline i.id output typeName))

/-- The types and materializers of all outputs. -/
def resolveOutputs (i : Invocation) (pipeline : String) (materializers : Materializers)
    (layered : Dict OutputLayer) : Except Error (Dict OutputConfiguration) :=
  match layered.firstUnknown? i.step.signature.outputs with
  | some output => .error (.configuration (.unknownOutput pipeline i.id output))
  | none => i.step.signature.outputs.traverse (i.resolveOutput pipeline materializers layered)

/-- The step of the deployment for an invocation. -/
def compile (i : Invocation) (c : PipelineConfiguration) (override : Option StepLayer)
    (materializers : Materializers) (stackKeys : List String) : Except Error DeploymentStep := do
  let l := i.layers c override
  SettingKey.validate c.name l.settings.keys (some stackKeys)
  let parameters ← i.resolveParameters c.name l.parameters
  let outputs ← i.resolveOutputs c.name materializers l.outputs
  return {
    spec := i.spec
    config := { StepConfiguration.ofLayer i.id { l with parameters } with
      outputs
      externalInputs := i.externals.map ExternalArtifact.resolve } }

end Invocation

namespace Pipeline

/-- The schedule of a run configuration has to be valid. -/
def checkSchedule (name : String) (run : RunConfiguration) : Except Error Unit :=
  match run.schedule.bind Schedule.error? with
  | some message =>
    .error (.configuration
      (.invalidRunConfiguration ("schedule of pipeline " ++ quoted name) message))
  | none => .ok ()

/-- The deployment and the spec for a run of a prepared pipeline. -/
def compileWith (p : Pipeline) (materializers : Materializers) (stack : Stack)
    (run : RunConfiguration) : Except Error (Deployment × Spec) := do
  let graph ← match p.graph with
    | some graph => pure graph
    | none => throw (.configuration (.notPrepared p.name))
  let configuration := p.configuration.updated run.pipelineLayer .merge
  let stackKeys := stack.settingKeys.keys
  SettingKey.validate p.name configuration.settings.keys (some stackKeys)
  if let some id := run.steps.keys.find? fun id => !graph.contains id then
    throw (.configuration (.unknownStep p.name id))
  checkSchedule p.name run
  let steps ← graph.invocations.toList.mapM fun i =>
    i.compile configuration (run.steps.get? i.id) materializers stackKeys
  let spec : Spec := {
    version := Spec.currentVersion
    source := p.definition.source
    parameters := p.arguments
    steps := steps.map (·.spec) }
  return ({
    runNameTemplate := run.runName.getD (RunName.default p.name)
    configuration
    steps
    parameters := p.arguments
    stack := stack.id
    schedule := run.schedule
    build := run.build
    clientVersion := Deployment.libraryVersion }, spec)

/-- The deployment and the spec for a run with the options of the pipeline. -/
def compile (p : Pipeline) (materializers : Materializers) (stack : Stack) :
    Except Error (Deployment × Spec) := do
  p.compileWith materializers stack (← p.options.load)

/-- The version hash of a spec with the source texts of the pipeline. -/
def versionHash (p : Pipeline) (spec : Spec) : Except Error String :=
  spec.versionHash p.name p.definition.sourceCode p.stepSource?

end Pipeline

end Pipework
