import Pipework.Dict

/-!
# JSON values

Numbers are integers or doubles, and the two never coincide: `1` is not `1.0`. Everything that
builds objects in this library takes their members from a dictionary, so that their keys ascend. Of
members under one key the first one counts.
-/

namespace Pipework

/-- An integer between `-2^63` and `2^64 - 1`, or a finite double given by its bits. -/
inductive Number where
  | int (value : Int)
  | double (bits : UInt64)
  deriving DecidableEq, Repr, Inhabited

inductive Json where
  | null
  | bool (value : Bool)
  | num (value : Number)
  | str (value : String)
  | arr (items : List Json)
  | obj (members : List (String × Json))
  deriving Repr, Inhabited

namespace Json

mutual

/-- Equality as a test. -/
def same : Json → Json → Bool
  | .null, .null => true
  | .bool a, .bool b => a == b
  | .num a, .num b => a == b
  | .str a, .str b => a == b
  | .arr a, .arr b => sameItems a b
  | .obj a, .obj b => sameMembers a b
  | _, _ => false
termination_by structural a => a

def sameItems : List Json → List Json → Bool
  | [], [] => true
  | x :: xs, y :: ys => same x y && sameItems xs ys
  | _, _ => false
termination_by structural a => a

def sameMembers : List (String × Json) → List (String × Json) → Bool
  | [], [] => true
  | (k, x) :: xs, (l, y) :: ys => k == l && same x y && sameMembers xs ys
  | _, _ => false
termination_by structural a => a

end

mutual

theorem same_iff : (a b : Json) → (same a b = true ↔ a = b)
  | .null, b => by cases b <;> simp [same]
  | .bool _, b => by cases b <;> simp [same]
  | .num _, b => by cases b <;> simp [same]
  | .str _, b => by cases b <;> simp [same]
  | .arr xs, b => by cases b <;> simp [same, sameItems_iff xs]
  | .obj xs, b => by cases b <;> simp [same, sameMembers_iff xs]

theorem sameItems_iff : (a b : List Json) → (sameItems a b = true ↔ a = b)
  | [], b => by cases b <;> simp [sameItems]
  | x :: xs, b => by cases b <;> simp [sameItems, same_iff x, sameItems_iff xs]

theorem sameMembers_iff : (a b : List (String × Json)) → (sameMembers a b = true ↔ a = b)
  | [], b => by cases b <;> simp [sameMembers]
  | (k, x) :: xs, b => by
    cases b <;> simp [sameMembers, same_iff x, sameMembers_iff xs, Prod.ext_iff]

end

instance : DecidableEq Json := fun a b => decidable_of_iff _ (same_iff a b)

/-- The object with the entries of a dictionary. -/
def ofDict (d : Dict Json) : Json := .obj d.entries

/-- An object from pairs in any order, later pairs winning. -/
def object (members : List (String × Json)) : Json := ofDict (Dict.ofList members)

def ofNat (n : Nat) : Json := .num (.int n)

def ofInt (n : Int) : Json := .num (.int n)

def isNull : Json → Bool
  | .null => true
  | _ => false

/-- The value under a key of an object. -/
def get? (k : String) : Json → Option Json
  | .obj members => Entries.find? k members
  | _ => none

/-- The value at a path of object keys. -/
def at? : List String → Json → Option Json
  | [], v => some v
  | k :: path, v => (v.get? k).bind (at? path)

end Json

end Pipework
