import Pipework.Config.Hook
import Pipework.Config.SettingKey
import Pipework.Config.StepLayer
import Pipework.Step.Signature

/-!
# Steps

A step is a function that pipelines call. It is described by its source, its code, its signature and
the layer of its defaults. A `Step.Draft` becomes a step by `Step.Draft.build`, which checks names,
settings and hooks.
-/

namespace Pipework

/-- The source of what is defined in the main program. -/
def Source.ofMain (name : String) : Source := { modulePath := "__main__", attributeName := name }

structure Step where
  name : String
  source : Source
  /-- The text of the function. -/
  sourceCode : String
  docstring : Option String
  signature : Signature
  /-- The layer below all others. -/
  defaults : StepLayer
  deriving DecidableEq

/-- A step before its description is checked. -/
structure Step.Draft where
  name : String
  source : Option Source := none
  sourceCode : String := ""
  docstring : Option String := none
  signature : Signature := {}
  defaults : StepLayer := ∅
  onFailure : Option Hook := none
  onSuccess : Option Hook := none

namespace Step.Draft

/-- Resolves a hook, if there is one, in place of the hook of a layer. -/
def resolveHook (owner field : String) (hook : Option Hook) (old : Option Source) :
    Except Error (Option Source) :=
  match hook with
  | none => .ok old
  | some hook => (hook.resolve owner field).map some

/-- The step, unless its name is blank, a settings key is malformed, a materializer is set for an
output that does not exist, or a hook has no source. -/
def build (d : Draft) : Except Error Step := do
  let name := Text.trim d.name
  if name.isEmpty then throw (.configuration (.emptyName "Step"))
  SettingKey.validate name d.defaults.settings.keys none
  if let some output := d.defaults.outputs.firstUnknown? d.signature.outputs then
    throw (.configuration (.unknownOutput "" name output))
  let failure ← resolveHook name "on_failure" d.onFailure d.defaults.hooks.failure
  let success ← resolveHook name "on_success" d.onSuccess d.defaults.hooks.success
  return {
    name
    source := d.source.getD (.ofMain name)
    sourceCode := d.sourceCode
    docstring := d.docstring
    signature := d.signature
    defaults := { d.defaults with hooks := { failure, success } } }

end Step.Draft

end Pipework
