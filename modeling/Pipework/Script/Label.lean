import Pipework.Store.Basic

/-!
# Labels

Identifiers are drawn anew in each session. A label is a name that an identifier has in every
session, such as `$build:0` for that of the first build, so that sessions can be written and
compared.
-/

namespace Pipework.Script

structure Label where
  name : String
  id : Uuid
  deriving DecidableEq

namespace Label

variable {α : Type}

/-- The labels of records, numbered from zero. -/
def number (start : String) (l : List (Record α)) : List Label :=
  l.mapIdx fun i r => { name := start ++ toString i, id := r.id }

/-- The labels of all that a store has made. -/
def ofStore (s : Store) : List Label :=
  { name := "$user", id := s.user.id } :: { name := "$workspace", id := s.workspace.id } ::
    number "$pipeline:" s.pipelines ++ number "$schedule:" s.schedules
      ++ number "$build:" s.builds ++ number "$deployment:" s.deployments

/-- The identifier in place of a label; other texts stay. -/
def resolve (labels : List Label) (s : String) : String :=
  match labels.find? (·.name = s) with
  | some label => label.id.toText
  | none => s

/-- The bytes of the text of an identifier. -/
def idSize : Nat := 36

/-- The labels in place of their identifiers, wherever these occur in a text. -/
def hide (labels : List Label) (s : String) : String :=
  if s.utf8ByteSize < idSize then s
  else labels.foldl (fun s label => s.replace label.id.toText label.name) s

end Label

end Pipework.Script
