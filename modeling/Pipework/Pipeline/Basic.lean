import Pipework.Config.PipelineLayer
import Pipework.Graph.Basic
import Pipework.Pipeline.Options

/-!
# Pipelines

A pipeline has a definition, a configuration and run options, and, once it is prepared, the graph
of its invocations and the arguments that the graph was made with. What builds the graph is an
entrypoint (`Pipework.Program.Basic`).
-/

namespace Pipework

/-- What a pipeline is, apart from its entrypoint. -/
structure PipelineDefinition where
  name : String
  /-- The default of each parameter of the entrypoint, if it has one. -/
  parameters : Dict (Option Json) := .empty
  source : Source
  sourceCode : String := ""
  docstring : Option String := none
  deriving DecidableEq

namespace PipelineDefinition

/-- Whether some parameter has no default. -/
def requiresParameters (d : PipelineDefinition) : Bool := d.parameters.values.any Option.isNone

/-- The values of all parameters: the arguments, and defaults where there is none. -/
def bind (d : PipelineDefinition) (arguments : Dict Json) : Except Error (Dict Json) :=
  let invalid (message : String) : Error :=
    .configuration (.invalidEntrypointArguments d.name message)
  match arguments.firstUnknown? d.parameters with
  | some name => .error (invalid ("unexpected argument " ++ quoted name))
  | none => match arguments.withDefaults d.parameters with
    | .ok bound => .ok bound
    | .error name => .error (invalid ("missing required argument " ++ quoted name))

end PipelineDefinition

structure Pipeline where
  definition : PipelineDefinition
  configuration : PipelineConfiguration
  options : RunOptions := {}
  /-- The invocations of the last preparation. -/
  graph : Option Graph := none
  /-- The arguments of the last preparation. -/
  arguments : Dict Json := .empty

namespace Pipeline

/-- A new pipeline without parameters. -/
def ofName (name : String) : Pipeline where
  definition := { name, source := .ofMain name }
  configuration := { name }

def name (p : Pipeline) : String := p.definition.name

def withParameter (p : Pipeline) (name : String) (default : Option Json) : Pipeline :=
  { p with definition :=
    { p.definition with parameters := p.definition.parameters.insert name default } }

def withSource (p : Pipeline) (source : Source) : Pipeline :=
  { p with definition := { p.definition with source } }

def withSourceCode (p : Pipeline) (sourceCode : String) : Pipeline :=
  { p with definition := { p.definition with sourceCode } }

def withDocstring (p : Pipeline) (docstring : String) : Pipeline :=
  { p with definition := { p.definition with docstring } }

/-- The pipeline with a hook for failures. -/
def onFailure (p : Pipeline) (hook : Hook) : Except Error Pipeline :=
  (hook.resolve p.name "on_failure").map fun source =>
    { p with configuration :=
      { p.configuration with hooks := { p.configuration.hooks with failure := source } } }

/-- The pipeline with a hook for successes. -/
def onSuccess (p : Pipeline) (hook : Hook) : Except Error Pipeline :=
  (hook.resolve p.name "on_success").map fun source =>
    { p with configuration :=
      { p.configuration with hooks := { p.configuration.hooks with success := source } } }

/-- The pipeline with a layer on its configuration. -/
def configure (p : Pipeline) (update : PipelineLayer) (mode : LayerMode) :
    Except Error Pipeline := do
  if let some settings := update.settings then
    SettingKey.validate p.name settings.keys none
  return { p with configuration := p.configuration.updated update mode }

/-- A copy of the pipeline with options on top of its own. -/
def withOptions (p : Pipeline) (options : RunOptions) : Pipeline :=
  { p with options := p.options.layered options }

def isPrepared (p : Pipeline) : Bool := p.graph.isSome

/-- The source text of the step behind an invocation. -/
def stepSource? (p : Pipeline) (id : String) : Option String :=
  (p.graph.bind (·.get? id)).map (·.step.sourceCode)

/-- The invocations in the order in which they were made, none before preparation. -/
def invocations (p : Pipeline) : List Invocation :=
  match p.graph with
  | some graph => graph.invocations.toList
  | none => []

end Pipeline

end Pipework
