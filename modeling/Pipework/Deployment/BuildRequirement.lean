import Pipework.Digest.Sha256
import Pipework.Document
import Pipework.Json.Printer

/-!
# Build requirements

A stack may need images built before it can run a deployment, one for each requirement. The
checksum of the requirements tells whether images built before will do. It does not depend on the
order of requirements that differ in key or step.
-/

namespace Pipework

/-- One image that a stack needs. -/
structure BuildRequirement where
  /-- What the image is for. -/
  key : String
  /-- The step that needs it, none for the whole pipeline. -/
  step : Option String := none
  settings : Json
  deriving DecidableEq

namespace BuildRequirement

instance : ToJson BuildRequirement where
  toJson r := Json.object <|
    Json.member "key" r.key ++ Json.member? "step_name" r.step
      ++ Json.member "settings" r.settings

def read? {δ : Type} [Document δ] : Document.Reader δ BuildRequirement :=
  Document.record? do
    let key ← Document.Fields.required "key" Document.text?
    let step ← Document.Fields.optional "step_name" Document.text?
    let settings ← Document.Fields.required "settings" Document.json?
    pure { key, step, settings }

/-- Images of the whole pipeline come before those of steps. -/
def stepLe : Option String → Option String → Bool
  | none, _ => true
  | some _, none => false
  | some a, some b => a ≤ b

/-- The order of keys, and of steps under one key. -/
def le (a b : BuildRequirement) : Bool :=
  if a.key = b.key then stepLe a.step b.step else a.key ≤ b.key

/-- The text that stands for one requirement. -/
def identityText (r : BuildRequirement) : String :=
  r.key ++ r.step.getD "" ++ r.settings.compact

/-- What is digested: the requirements in order, and whether the images download code. -/
def checksumText (requirements : List BuildRequirement) (downloadsCode : Bool) : String :=
  String.join ((requirements.mergeSort le).map identityText)
    ++ if downloadsCode then "code:1" else "code:0"

def checksum (requirements : List BuildRequirement) (downloadsCode : Bool) : String :=
  Digest.sha256Hex (checksumText requirements downloadsCode)

end BuildRequirement

end Pipework
