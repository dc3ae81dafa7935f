import Pipework.Config.StepLayer
import Pipework.Error
import Pipework.Identity.ContentHash

/-!
# Artifacts

Artifacts are what steps pass to each other. Those of a step are known by the invocation and the
output that produce them and belong to one preparation pass. External artifacts come from outside
the pipeline.
-/

namespace Pipework

/-- An output of a step invocation. -/
structure Artifact where
  /-- The id of the invocation. -/
  producer : String
  output : String
  /-- The pipeline that the invocation is part of. -/
  pipeline : String
  /-- The preparation pass, outside of which the artifact cannot be used. -/
  pass : Uuid
  deriving DecidableEq

namespace Artifact

instance : ToJson Artifact where
  toJson a := Json.object <|
    Json.member "invocation_id" a.producer ++ Json.member "output_name" a.output
      ++ Json.member "pipeline_name" a.pipeline ++ Json.member "pass_id" a.pass

def read? {δ : Type} [Document δ] : Document.Reader δ Artifact :=
  Document.record? do
    let producer ← Document.Fields.required "invocation_id" Document.text?
    let output ← Document.Fields.required "output_name" Document.text?
    let pipeline ← Document.Fields.required "pipeline_name" Document.text?
    let pass ← Document.Fields.required "pass_id" Document.uuid?
    pure { producer, output, pipeline, pass }

end Artifact

/-- Where an external artifact is found. -/
inductive ExternalArtifact.Content where
  /-- A value that is uploaded before the step runs. -/
  | value (value : Json)
  /-- An artifact that is stored already. -/
  | stored (id : Uuid)
  deriving DecidableEq

structure ExternalArtifact where
  content : ExternalArtifact.Content
  /-- What uploads the value. -/
  materializer : Option Source := none
  deriving DecidableEq

namespace ExternalArtifact

def value? (a : ExternalArtifact) : Option Json :=
  match a.content with
  | .value v => some v
  | .stored _ => none

def id? (a : ExternalArtifact) : Option Uuid :=
  match a.content with
  | .value _ => none
  | .stored id => some id

/-- The value that identifies the content: itself, or the id as a text. -/
def identity (a : ExternalArtifact) : Json :=
  match a.content with
  | .value v => v
  | .stored id => .str id.toText

/-- The input that the artifact gives to a step. -/
def resolve (a : ExternalArtifact) : ExternalInput where
  id := a.id?
  value := a.value?
  contentHash := contentHash a.identity
  materializer := a.materializer

end ExternalArtifact

/-- What a step invocation gives back to the entrypoint. -/
structure StepOutputs where
  /-- The id of the invocation. -/
  invocation : String
  pipeline : String
  artifacts : Dict Artifact
  deriving DecidableEq

namespace StepOutputs

/-- The artifacts of all outputs that a signature declares. -/
def ofOutputs (invocation pipeline : String) (pass : Uuid) (outputs : Dict String) :
    StepOutputs where
  invocation
  pipeline
  artifacts := outputs.mapWithKey fun output _ => { producer := invocation, output, pipeline, pass }

def get (o : StepOutputs) (output : String) : Except Error Artifact :=
  match o.artifacts.get? output with
  | some artifact => .ok artifact
  | none => .error (.configuration (.unknownOutput o.pipeline o.invocation output))

/-- The artifact of the only output, none where there are several or no outputs. -/
def single? (o : StepOutputs) : Option Artifact :=
  match o.artifacts.values with
  | [artifact] => some artifact
  | _ => none

end StepOutputs

end Pipework
