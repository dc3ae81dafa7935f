import Pipework.Config.Source
import Pipework.Json.Printer

/-!
# Specs

The spec of a pipeline is its structure: which steps it invokes, in what order, and how their inputs
and outputs are wired. Two runs with one spec and one source text are runs of one version.
-/

namespace Pipework

/-- The output that feeds an input. -/
structure InputSpec where
  /-- The id of the invocation. -/
  producer : String
  output : String
  deriving DecidableEq, Repr

namespace InputSpec

instance : ToJson InputSpec where
  toJson i := Json.object <|
    Json.member "step_name" i.producer ++ Json.member "output_name" i.output

def read? {δ : Type} [Document δ] : Document.Reader δ InputSpec :=
  Document.record? do
    let producer ← Document.Fields.required "step_name" Document.text?
    let output ← Document.Fields.required "output_name" Document.text?
    pure { producer, output }

end InputSpec

/-- The place of one step invocation in its pipeline. -/
structure StepSpec where
  source : Source
  /-- The ids of the invocations that have to run before, ascending. -/
  predecessors : List String
  inputs : Dict InputSpec
  /-- The id of the invocation. -/
  id : String
  deriving DecidableEq

namespace StepSpec

instance : ToJson StepSpec where
  toJson s := Json.object <|
    Json.member "source" s.source ++ Json.member "upstream_steps" s.predecessors
      ++ Json.member "inputs" s.inputs ++ Json.member "pipeline_parameter_name" s.id

def read? {δ : Type} [Document δ] : Document.Reader δ StepSpec :=
  Document.record? do
    let source ← Document.Fields.required "source" Source.read?
    let predecessors ← Document.Fields.required "upstream_steps" (Document.list? Document.text?)
    let inputs ← Document.Fields.required "inputs" (Document.dict? InputSpec.read?)
    let id ← Document.Fields.required "pipeline_parameter_name" Document.text?
    pure { source, predecessors, inputs, id }

/-- The step with its source written as an import path. -/
def identity (s : StepSpec) : Json :=
  Json.object <|
    Json.member "source" s.source.importPath ++ Json.member "upstream_steps" s.predecessors
      ++ Json.member "inputs" s.inputs ++ Json.member "pipeline_parameter_name" s.id

end StepSpec

/-- The structure of a pipeline. -/
structure Spec where
  /-- The version of the format. -/
  version : String
  source : Option Source := none
  /-- The arguments of the entrypoint. -/
  parameters : Dict Json := .empty
  /-- The steps in the order of their invocation. -/
  steps : List StepSpec
  deriving DecidableEq

namespace Spec

/-- The format that this library writes. -/
def currentVersion : String := "0.4"

instance : ToJson Spec where
  toJson s := Json.object <|
    Json.member "version" s.version ++ Json.member? "source" s.source
      ++ Json.member "parameters" s.parameters ++ Json.member "steps" s.steps

def read? {δ : Type} [Document δ] : Document.Reader δ Spec :=
  Document.record? do
    let version ← Document.Fields.required "version" Document.text?
    let source ← Document.Fields.optional "source" Source.read?
    let parameters ← Document.Fields.defaulted "parameters" Document.values? .empty
    let steps ← Document.Fields.required "steps" (Document.list? StepSpec.read?)
    pure { version, source, parameters, steps }

/-- The spec with all sources written as import paths. -/
def identity (s : Spec) : Json :=
  Json.object <|
    Json.member "version" s.version ++ Json.member "parameters" s.parameters
      ++ Json.member "steps" (s.steps.map StepSpec.identity)
      ++ Json.member? "source" (s.source.map Source.importPath)

/-- The text of the spec that the version hash covers. -/
def identityText (s : Spec) : String := s.identity.compact

end Spec

end Pipework
