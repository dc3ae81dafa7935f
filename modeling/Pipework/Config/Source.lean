import Pipework.Document

/-!
# Source references

A source names a function or type by a module and an attribute. Its path is written with dots:
two or more identifiers, each an ASCII letter or underscore followed by letters, digits and
underscores.
-/

namespace Pipework

/-- A function or type in a module. -/
structure Source where
  modulePath : String
  attributeName : String
  /-- Whether the source belongs to the pipeline library itself. -/
  internal : Bool := false
  deriving DecidableEq, Repr, Inhabited

namespace Source

/-- The dotted path under which the source is imported. -/
def importPath (s : Source) : String := s.modulePath ++ "." ++ s.attributeName

instance : ToString Source := ⟨importPath⟩

def isNameStart (c : Char) : Bool := c.isAlpha || c = '_'

def isNamePart (c : Char) : Bool := c.isAlphanum || c = '_'

/-- An ASCII identifier. -/
def isIdentifier : List Char → Bool
  | [] => false
  | c :: cs => isNameStart c && cs.all isNamePart

/-- The source at a dotted path, if the path is well formed. -/
def ofChars? (path : List Char) : Option Source :=
  let names := Text.splitAt '.' path
  if names.length ≥ 2 ∧ names.all isIdentifier then
    some {
      modulePath := String.ofList (['.'].intercalate names.dropLast)
      attributeName := String.ofList (names.getLastD []) }
  else none

/-- Why a text is not the path of a source. -/
def pathError (path : String) : String :=
  "'" ++ path ++ "' is not a valid source path of the form `module.attribute`"

def ofPath (path : String) : Except String Source :=
  match ofChars? path.toList with
  | some source => .ok source
  | none => .error (pathError path)

instance : ToJson Source where
  toJson s := Json.object <|
    Json.member "module" s.modulePath ++ Json.member "attribute" s.attributeName
      ++ Json.member "internal" s.internal

def read? {δ : Type} [Document δ] : Document.Reader δ Source :=
  Document.record? do
    let modulePath ← Document.Fields.required "module" Document.text?
    let attributeName ← Document.Fields.required "attribute" Document.text?
    let internal ← Document.Fields.defaulted "internal" Document.bool? false
    pure { modulePath, attributeName, internal }

end Source

end Pipework
