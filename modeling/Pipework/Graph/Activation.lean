import Pipework.Error
import Pipework.Uuid

/-!
# The active pipeline

At most one pipeline is prepared at a time. The slot holds the name and the preparation pass of that
pipeline from when the pass enters until it leaves.
-/

namespace Pipework

/-- A pipeline in preparation. -/
structure Activation where
  pipeline : String
  pass : Uuid
  deriving DecidableEq

/-- The pipeline in preparation, if there is one. -/
abbrev Slot := Option Activation

namespace Slot

/-- Puts a pass into the empty slot. -/
def enter (slot : Slot) (pipeline : String) (pass : Uuid) : Except GraphError Slot :=
  match slot with
  | some active => .error (.concurrentActivation active.pipeline pipeline)
  | none => .ok (some { pipeline, pass })

/-- Empties the slot if it holds this pass. -/
def leave (slot : Slot) (pass : Uuid) : Slot := slot.filter (·.pass != pass)

def isActive (slot : Slot) (pass : Uuid) : Bool := slot.any (·.pass == pass)

end Slot

end Pipework
