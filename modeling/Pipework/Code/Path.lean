import Pipework.Text.Blank

/-!
# Paths

A path is compared by its components. Between slashes, nothing and a single dot count for nothing,
except that a dot at the start of a relative path is a component. Two dots are a component of their
own.
-/

namespace Pipework.Path

inductive Component where
  | root
  | current
  | parent
  | name (text : String)
  deriving DecidableEq, Repr

namespace Component

def text : Component → String
  | .root => "/"
  | .current => "."
  | .parent => ".."
  | .name text => text

/-- The component between two slashes, if there is one. -/
def ofPiece? (piece : List Char) : Option Component :=
  if piece = [] ∨ piece = ['.'] then none
  else if piece = ['.', '.'] then some .parent
  else some (.name (String.ofList piece))

end Component

/-- The components of a path. -/
def components (path : String) : List Component :=
  let pieces := Text.splitAt '/' path.toList
  let inner := pieces.filterMap Component.ofPiece?
  match path.toList with
  | '/' :: _ => .root :: inner
  | _ => if pieces.head? = some ['.'] then .current :: inner else inner

/-- What is left of a list after another one at its start. -/
def stripPrefix? (start : List Component) (path : List Component) : Option (List Component) :=
  match start, path with
  | [], rest => some rest
  | _ :: _, [] => none
  | a :: start, b :: rest => if a = b then stripPrefix? start rest else none

/-- Components written with slashes between them. -/
def join (components : List Component) : String :=
  "/".intercalate (components.map Component.text)

end Pipework.Path
