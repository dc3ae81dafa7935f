import Pipework.Document

/-!
# Lenient access to JSON

Documents written by hand leave out what they do not need. A value that is missing or of another
kind counts here as the empty one of its kind.
-/

namespace Pipework.Json

/-- The value of a field, null when it is missing. -/
def field (v : Json) (name : String) : Json := (v.get? name).getD .null

def has (v : Json) (name : String) : Bool := (v.get? name).isSome

def list (v : Json) : List Json := v.items?.getD []

def pairs (v : Json) : List (String × Json) := v.members?.getD []

def dict (v : Json) : Dict Json := .ofList v.pairs

def string (v : Json) : String := v.text?.getD ""

def strings (v : Json) : List String := v.list.map string

def flag (v : Json) : Bool := v.bool?.getD false

def nat (v : Json) : Nat := v.natural?.getD 0

/-- The text of a field, or a text for when it has none. -/
def nameAt (v : Json) (name default : String) : String := (v.field name).text?.getD default

/-- Texts as an array. -/
def ofTexts (l : List String) : Json := .arr (l.map .str)

mutual

/-- Changes every text inside a value except keys. -/
def mapTexts (f : String → String) : Json → Json
  | .str s => .str (f s)
  | .arr items => .arr (mapItems f items)
  | .obj members => .obj (mapMembers f members)
  | v => v
termination_by structural v => v

/-- Changes every text inside a list of values. -/
def mapItems (f : String → String) : List Json → List Json
  | [] => []
  | v :: rest => mapTexts f v :: mapItems f rest
termination_by structural l => l

/-- Changes every text inside the members of an object. -/
def mapMembers (f : String → String) : List (String × Json) → List (String × Json)
  | [] => []
  | (k, v) :: rest => (k, mapTexts f v) :: mapMembers f rest
termination_by structural l => l

end

end Pipework.Json
