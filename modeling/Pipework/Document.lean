import Pipework.Json.Basic
import Pipework.Time.Instant
import Pipework.Uuid

/-!
# Reading typed records from documents

A document is anything that can be asked for a text, a flag, a table and so on; JSON values are
documents. A record is read field by field. Its fields are named, or, where the document allows
it, listed in the order of their declaration. A strict record refuses fields it does not know.
-/

namespace Pipework

/-- The fields of a record that have not been read yet. -/
inductive Fields (δ : Type) where
  | named (members : List (String × δ))
  | listed (items : List δ)

/-- Something a typed value can be read from. -/
class Document (δ : Type) where
  /-- Whether an optional value is left out, none where that cannot be told. -/
  absence? : δ → Option Bool
  text? : δ → Option String
  bool? : δ → Option Bool
  /-- An unsigned 64-bit integer. -/
  natural? : δ → Option Nat
  json? : δ → Option Json
  /-- The items of a sequence. -/
  items? : δ → Option (List δ)
  /-- The pairs of a table; of two pairs with one key the later counts. -/
  table? : δ → Option (List (String × δ))
  /-- The fields of a record. -/
  fields? : δ → Option (Fields δ)

namespace Json

def text? : Json → Option String
  | .str s => some s
  | _ => none

def bool? : Json → Option Bool
  | .bool b => some b
  | _ => none

def natural? : Json → Option Nat
  | .num (.int n) => if 0 ≤ n then some n.toNat else none
  | _ => none

def items? : Json → Option (List Json)
  | .arr items => some items
  | _ => none

def members? : Json → Option (List (String × Json))
  | .obj members => some members
  | _ => none

/-- An object has named fields, an array listed ones. -/
def fields? : Json → Option (Fields Json)
  | .obj members => some (.named members)
  | .arr items => some (.listed items)
  | _ => none

instance : Document Json where
  absence? v := some v.isNull
  text? := text?
  bool? := bool?
  natural? := natural?
  json? := some
  items? := items?
  table? := members?
  fields? := fields?

end Json

namespace Document

variable {δ α : Type} [Document δ]

/-- A reader of one kind of value. -/
abbrev Reader (δ α : Type) := δ → Option α

def uuid? : Reader δ Uuid := fun d => (text? d).bind Uuid.ofText?

def instant? : Reader δ Time.Instant := fun d => (text? d).bind Time.Instant.ofText?

/-- A sequence of values of one kind. -/
def list? (read : Reader δ α) : Reader δ (List α) := fun d => (items? d).bind (·.mapM read)

/-- A table with values of one kind. -/
def dict? (read : Reader δ α) : Reader δ (Dict α) := fun d => do
  let pairs ← table? d
  let entries ← pairs.mapM fun (k, v) => (read v).map fun x => (k, x)
  some (Dict.ofList entries)

/-- A table of values of any kind. -/
def values? : Reader δ (Dict Json) := dict? json?

/-- A value or its absence. -/
def option? (read : Reader δ α) : Reader δ (Option α) := fun d =>
  match absence? d with
  | some true => some none
  | some false => (read d).map some
  | none => none

/-- Reads fields and leaves those it has not read. -/
abbrev FieldReader (δ : Type) := StateT (Fields δ) Option

namespace Fields

/-- Takes out the next field: the only one of that name, or the first of a list. -/
def take? (name : String) : FieldReader δ (Option δ)
  | .named members => match members.filter (·.1 == name) with
    | [] => some (none, .named members)
    | [(_, d)] => some (some d, .named (members.filter (·.1 != name)))
    | _ => none
  | .listed [] => some (none, .listed [])
  | .listed (d :: rest) => some (some d, .listed rest)

/-- A field that has to be there. -/
def required (name : String) (read : Reader δ α) : FieldReader δ α := do
  match ← take? name with
  | some d => liftM (read d)
  | none => none

/-- A field with a value for when it is missing. -/
def defaulted (name : String) (read : Reader δ α) (default : α) : FieldReader δ α := do
  match ← take? name with
  | some d => liftM (read d)
  | none => pure default

/-- A field that may be missing or absent. -/
def optional (name : String) (read : Reader δ α) : FieldReader δ (Option α) :=
  defaulted name (option? read) none

/-- Whether the fields are listed without names. -/
def areListed : Fields δ → Bool
  | .named _ => false
  | .listed _ => true

/-- A field that may be absent, and missing only where fields have names. -/
def nullable (name : String) (read : Reader δ α) : FieldReader δ (Option α) := do
  let listed := areListed (← get)
  match ← take? name with
  | some d => liftM (option? read d)
  | none => if listed then failure else pure none

/-- Nothing of a list is left over. -/
def listExhausted : Fields δ → Bool
  | .named _ => true
  | .listed items => items.isEmpty

/-- No field is left over at all. -/
def exhausted : Fields δ → Bool
  | .named members => members.isEmpty
  | .listed items => items.isEmpty

end Fields

/-- Reads a record that ignores unknown fields. -/
def record? (reader : FieldReader δ α) : Reader δ α := fun d => do
  let (x, rest) ← reader.run (← fields? d)
  if Fields.listExhausted rest then some x else none

/-- Reads a record that refuses unknown fields. -/
def strictRecord? (reader : FieldReader δ α) : Reader δ α := fun d => do
  let (x, rest) ← reader.run (← fields? d)
  if Fields.exhausted rest then some x else none

/-- Reads a record whose fields always have names. -/
def namedRecord? (reader : FieldReader δ α) : Reader δ α := fun d => do
  let (x, _) ← reader.run (.named (← table? d))
  some x

end Document

/-- A value that is written as one kind of JSON and read from documents of any kind. -/
class ToJson (α : Type) where
  toJson : α → Json

export ToJson (toJson)

namespace ToJson

variable {α : Type} [ToJson α]

instance : ToJson Json := ⟨id⟩
instance : ToJson String := ⟨.str⟩
instance : ToJson Bool := ⟨.bool⟩
instance : ToJson Nat := ⟨Json.ofNat⟩
instance : ToJson Uuid := ⟨fun id => .str id.toText⟩
instance : ToJson Time.Instant := ⟨fun t => .str t.toText⟩
instance : ToJson (List α) := ⟨fun l => .arr (l.map toJson)⟩
instance : ToJson (Dict α) := ⟨fun d => Json.ofDict (d.map toJson)⟩

/-- An absent value is written as null. -/
instance : ToJson (Option α) where
  toJson
    | none => .null
    | some x => toJson x

end ToJson

namespace Json

variable {α : Type} [ToJson α]

/-- A member that is always written. -/
def member (name : String) (x : α) : List (String × Json) := [(name, toJson x)]

/-- A member that is written only when present. -/
def member? (name : String) : Option α → List (String × Json)
  | none => []
  | some x => member name x

/-- A member that is written only when it has entries. -/
def memberUnlessEmpty (name : String) (d : Dict α) : List (String × Json) :=
  if d.isEmpty then [] else member name d

end Json

end Pipework
