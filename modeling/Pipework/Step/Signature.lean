import Pipework.Document

/-!
# Signatures

What a step takes and gives: input and output artifacts with the names of their types, and
parameters with their defaults.
-/

namespace Pipework

structure Signature where
  /-- The type name of each input. -/
  inputs : Dict String := .empty
  /-- The type name of each output. -/
  outputs : Dict String := .empty
  /-- The default of each parameter, if it has one. -/
  parameters : Dict (Option Json) := .empty
  deriving DecidableEq, Inhabited

namespace Signature

instance : ToJson Signature where
  toJson s := Json.object <|
    Json.member "inputs" s.inputs ++ Json.member "outputs" s.outputs
      ++ Json.member "parameters" s.parameters

def read? {δ : Type} [Document δ] : Document.Reader δ Signature :=
  Document.record? do
    let inputs ← Document.Fields.required "inputs" (Document.dict? Document.text?)
    let outputs ← Document.Fields.required "outputs" (Document.dict? Document.text?)
    let parameters ←
      Document.Fields.required "parameters" (Document.dict? (Document.option? Document.json?))
    pure { inputs, outputs, parameters }

end Signature

/-- Fills in the defaults of parameters that have no value, or names the first one that is missing
in ascending order. -/
def Dict.withDefaults (values : Dict Json) (parameters : Dict (Option Json)) :
    Except String (Dict Json) :=
  parameters.entries.foldlM (fun filled (name, default) =>
    if filled.contains name then .ok filled
    else match default with
      | some value => .ok (filled.insert name value)
      | none => .error name) values

/-- The first name of a table that another table lacks. -/
def Dict.firstUnknown? {α β : Type} (given : Dict α) (known : Dict β) : Option String :=
  given.keys.find? fun name => !known.contains name

end Pipework
