import Pipework.Error
import Pipework.Text.Blank

/-!
# Settings keys

Settings are stored under general keys or under keys `<component_type>.<flavor>` that address one
component of a stack.
-/

namespace Pipework.SettingKey

/-- The keys that do not depend on a stack. -/
def general : List String := ["docker", "resources"]

/-- The kinds of stack components that take settings. -/
def componentTypes : List String :=
  ["alerter", "annotator", "artifact_store", "container_registry", "data_validator",
    "experiment_tracker", "feature_store", "image_builder", "model_deployer", "model_registry",
    "orchestrator", "step_operator"]

def isFlavorChar (c : Char) : Bool := c.isLower || c.isDigit || c = '_' || c = '-'

/-- The component type and flavor that a key addresses, if it has this form. -/
def split? (key : String) : Option (String × String) :=
  match Text.splitAt '.' key.toList with
  | [componentType, flavor] =>
    if componentTypes.contains (String.ofList componentType) ∧ flavor ≠ []
        ∧ flavor.all isFlavorChar then
      some (String.ofList componentType, String.ofList flavor)
    else none
  | _ => none

/-- Texts in quotes, between brackets. -/
def listing (texts : List String) : String :=
  "[" ++ ", ".intercalate (texts.map fun s => "\"" ++ s ++ "\"") ++ "]"

/-- What is said of a key that has neither form. -/
def formReason : String :=
  "expected one of " ++ listing general
    ++ " or `<component_type>.<flavor>` with a component type in " ++ listing componentTypes

/-- What is said of a key that no component of the stack has. -/
def stackReason : String := "no component of the target stack accepts these settings"

/-- What is wrong with the form of a key. -/
def formError? (key : String) : Option String :=
  if general.contains key || (split? key).isSome then none else some formReason

/-- What is wrong with a key, given the keys of a stack if one is known. -/
def error? (stackKeys : Option (List String)) (key : String) : Option String :=
  match formError? key with
  | some reason => some reason
  | none => match stackKeys with
    | none => none
    | some keys => if (split? key).isSome && !keys.contains key then some stackReason else none

/-- Accepts the keys or reports the first that is wrong. -/
def validate (pipeline : String) (keys : List String) (stackKeys : Option (List String)) :
    Except Error Unit :=
  match keys with
  | [] => .ok ()
  | key :: rest => match error? stackKeys key with
    | some reason => .error (.configuration (.unknownSettingKey pipeline key reason))
    | none => validate pipeline rest stackKeys

end Pipework.SettingKey
