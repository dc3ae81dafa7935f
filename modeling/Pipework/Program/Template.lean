import Pipework.Program.Workflow
import Pipework.Yaml.Printer

/-!
# Templates of run configurations

The template of a prepared pipeline is a run configuration that lists everything that can be set
for it on a stack and sets nothing but the defaults of parameters. It is written to a file with
every line commented out.
-/

namespace Pipework

namespace Pipeline

/-- A table without settings for every key that the stack knows. -/
def settingsTemplate (stack : Stack) : Dict Json :=
  (NameSet.ofList (SettingKey.general ++ stack.settingKeys.keys)).map fun _ => .obj []

/-- What can be set for one step. -/
def stepTemplate (stack : Stack) (i : Invocation) : Json :=
  Json.object [
    ("enable_cache", .null),
    ("parameters", toJson i.step.signature.parameters),
    ("settings", toJson (settingsTemplate stack)),
    ("extra", .obj []),
    ("outputs", toJson (i.step.signature.outputs.map fun _ =>
      Json.object [("materializer_source", .null)]))]

/-- What can be set for a run of the pipeline. -/
def template (p : Pipeline) (stack : Stack) : Json :=
  Json.object [
    ("run_name", .null),
    ("enable_cache", .null),
    ("enable_artifact_metadata", .null),
    ("enable_artifact_visualization", .null),
    ("schedule", .null),
    ("build", .null),
    ("settings", toJson (settingsTemplate stack)),
    ("extra", .obj []),
    ("steps", Json.object (p.invocations.map fun i => (i.id, stepTemplate stack i)))]

/-- The first line of a template file. -/
def templateHeader : String :=
  "# Run configuration template. Uncomment the options you want to set.\n"

/-- The lines of a text that ends each of them. -/
def lines (cs : List Char) : List (List Char) :=
  match (Text.splitAt '\n' cs).reverse with
  | [] :: rest => rest.reverse
  | pieces => pieces.reverse

/-- The template as the text of a file. -/
def templateText (p : Pipeline) (stack : Stack) : String :=
  templateHeader ++ String.join ((lines (Yaml.print (p.template stack)).toList).map fun line =>
    "# " ++ String.ofList line ++ "\n")

end Pipeline

namespace Workflow

variable {σ : Type}

def template (w : Workflow σ) (stack : Stack) : Action σ Json := do
  w.prepareIfPossible
  effect fun p => pure (p.template stack)

/-- The text of a template file in a directory that may be missing. -/
def templateFile (w : Workflow σ) (stack : Stack) (directoryExists : Bool) : Action σ String := do
  w.prepareIfPossible
  if directoryExists then effect fun p => pure (p.templateText stack)
  else effect fun _ => Effect.lift (.error (.io "no such directory"))

end Workflow

end Pipework
