import Pipework.Deployment.Spec
import Pipework.Digest.Md5
import Pipework.Error
import Pipework.Text.Blank
import Pipework.Text.Number

/-!
# Version hashes

The version of a pipeline is known by a digest of its spec, of its source text where the format of
the spec is recent enough, and of the source texts of its steps.
-/

namespace Pipework

namespace Spec

/-- The first two numbers of a version, zero where there is none. -/
def versionNumbers (version : String) : Nat × Nat :=
  let numbers := (Text.splitAt '.' version.toList).map fun part =>
    match Text.natural? (Nat.pow 2 32) (Text.trim (String.ofList part)) with
    | .ok n => n
    | .error _ => 0
  (numbers.headD 0, (numbers.drop 1).headD 0)

/-- Whether a version is a given one or a later one. -/
def versionAtLeast (version : String) (minimum : Nat × Nat) : Bool :=
  let (major, minor) := versionNumbers version
  minimum.1 < major || (minimum.1 = major && minimum.2 ≤ minor)

/-- The first version whose hash covers the source text of the pipeline. -/
def sourceVersion : Nat × Nat := (0, 4)

/-- An invocation whose step has no source text. -/
def missingSource (pipeline id : String) : Error :=
  .compilation pipeline ("no source code found for step '" ++ id ++ "'")

/-- The source texts of the steps. -/
def sourceTexts (pipeline : String) (source? : String → Option String) (steps : List StepSpec) :
    Except Error (List String) :=
  steps.mapM fun step => match source? step.id with
    | some text => .ok text
    | none => .error (missingSource pipeline step.id)

/-- What is digested: the spec, the text of the pipeline, the texts of the steps. -/
def versionText (s : Spec) (pipeline pipelineSource : String)
    (source? : String → Option String) : Except Error String := do
  let texts ← sourceTexts pipeline source? s.steps
  return s.identityText
    ++ (if versionAtLeast s.version sourceVersion then pipelineSource else "")
    ++ String.join texts

def versionHash (s : Spec) (pipeline pipelineSource : String)
    (source? : String → Option String) : Except Error String :=
  (s.versionText pipeline pipelineSource source?).map Digest.md5Hex

end Spec

end Pipework
