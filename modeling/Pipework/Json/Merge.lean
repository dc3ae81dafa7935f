import Pipework.Json.Basic

/-!
# Deep merge

Merging two objects keeps the members of both and merges the values under shared keys. Everywhere
else the later value wins, so a list or a scalar replaces what was there.
-/

namespace Pipework.Json

mutual

/-- The value `base` updated by a later one. -/
def merge (base : Json) : Json → Json
  | .obj update => match base with
    | .obj members => .obj (mergeMembers members update)
    | _ => .obj update
  | update => update
termination_by structural update => update

/-- The members of an object with later ones, each merged into what the object has under its key. -/
def mergeMembers (members : List (String × Json)) :
    List (String × Json) → List (String × Json)
  | [] => members
  | (k, v) :: update =>
    Entries.put k (fun _ => match Entries.find? k members with
      | some x => merge x v
      | none => v) (mergeMembers members update)
termination_by structural update => update

end

theorem ascending_mergeMembers {members : List (String × Json)} (h : Ascending members) :
    (update : List (String × Json)) → Ascending (mergeMembers members update)
  | [] => h
  | (k, v) :: update => by
    rw [mergeMembers]
    exact Entries.ascending_put (ascending_mergeMembers h update)

end Pipework.Json

namespace Pipework.Dict

/-- Two dictionaries of values merged like objects. -/
def merge (base update : Dict Json) : Dict Json :=
  ⟨Json.mergeMembers base.entries update.entries,
    Json.ascending_mergeMembers base.ascending _⟩

theorem ofDict_merge (base update : Dict Json) :
    Json.ofDict (base.merge update) = (Json.ofDict base).merge (Json.ofDict update) := by
  simp [merge, Json.ofDict, Json.merge]

end Pipework.Dict
