import Pipework.Config.Source
import Pipework.Error

/-!
# Hooks

A hook is a function to run when a step or a pipeline fails or succeeds. It is given as a source, as
a dotted path, or as the type path of a function in the program, and stored as a source.
-/

namespace Pipework

/-- A hook as it was specified. -/
inductive Hook where
  | source (source : Source)
  | path (path : String)
  /-- A function of the running program, named by its type path. -/
  | function (typePath : String)
  deriving DecidableEq, Repr

namespace Hook

/-- Closures and generic functions have no name that could be imported later. -/
def isNamed (typePath : String) : Bool :=
  !Text.contains "\x7b\x7bclosure\x7d\x7d" typePath && !typePath.toList.contains '<'

/-- The source of a hook, or why there is none. -/
def source? : Hook → Except String Source
  | .source s => .ok s
  | .path p => Source.ofPath p
  | .function typePath =>
    if isNamed typePath then Source.ofPath (Text.replace "::" "." typePath)
    else .error ("'" ++ typePath ++ "' is not a named function; closures cannot be stored as hooks")

/-- Resolves the hook in a field of a step or pipeline. -/
def resolve (hook : Hook) (owner field : String) : Except Error Source :=
  match hook.source? with
  | .ok s => .ok s
  | .error reason => .error (.configuration (.invalidHook owner field reason))

end Hook

/-- What a hook is told when it runs. -/
structure HookContext where
  pipeline : String
  /-- The id of the invocation, if the hook runs for a step. -/
  step : Option String := none
  /-- The message of the error, if the hook runs for a failure. -/
  error : Option String := none
  deriving DecidableEq, Repr

namespace HookContext

instance : ToJson HookContext where
  toJson c := Json.object <|
    Json.member "pipeline" c.pipeline ++ Json.member "step" c.step ++ Json.member "error" c.error

def read? {δ : Type} [Document δ] : Document.Reader δ HookContext :=
  Document.record? do
    let pipeline ← Document.Fields.required "pipeline" Document.text?
    let step ← Document.Fields.nullable "step" Document.text?
    let error ← Document.Fields.nullable "error" Document.text?
    pure { pipeline, step, error }

end HookContext

end Pipework
