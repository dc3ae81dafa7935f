import Pipework.Graph.Activation
import Pipework.Graph.Invocation
import Std.Data.HashMap

/-!
# The invocation graph

A graph holds the invocations of one preparation pass in the order in which they were added. An
invocation depends only on earlier ones of the same pass, so that order is one in which the steps
can run. A graph accepts invocations while its pass is active; a detached graph always does.
-/

namespace Pipework

structure Graph where
  pipeline : String
  pass : Uuid
  detached : Bool := false
  invocations : Array Invocation := #[]
  /-- The position of each id. -/
  index : Std.HashMap String Nat := ∅

namespace Graph

/-- Suffixes for ids that are taken stay below this number. -/
def suffixBound : Nat := 10000

def contains (g : Graph) (id : String) : Bool := g.index.contains id

def get? (g : Graph) (id : String) : Option Invocation :=
  match g.index[id]? with
  | some position => g.invocations[position]?
  | none => none

def ids (g : Graph) : List String := g.invocations.toList.map (·.id)

def size (g : Graph) : Nat := g.invocations.size

/-- The base followed by a number. -/
def suffixed (base : String) (n : Nat) : String := base ++ "_" ++ toString n

/-- The base with the least number that makes it free, among so many numbers from one on. -/
def freeSuffix? (taken : String → Bool) (base : String) : Nat → Nat → Option String
  | 0, _ => none
  | count + 1, n =>
    if taken (suffixed base n) then freeSuffix? taken base count (n + 1)
    else some (suffixed base n)

/-- The id for a new invocation: the base if it is free, else the base with a number. -/
def freeId (g : Graph) (base : String) (allowSuffix : Bool) : Except GraphError String :=
  if !g.contains base then .ok base
  else if !allowSuffix then .error (.duplicateInvocation g.pipeline base)
  else match freeSuffix? g.contains base (suffixBound - 2) 2 with
    | some id => .ok id
    | none => .error (.identifierExhaustion g.pipeline base)

/-- The graph with one more invocation at its end. -/
def push (g : Graph) (i : Invocation) : Graph :=
  { g with
    invocations := g.invocations.push i
    index := g.index.insert i.id g.invocations.size }

/-- Whether the graph accepts invocations. -/
def isOpen (g : Graph) (slot : Slot) : Bool := g.detached || slot.isActive g.pass

/-- The first input that belongs to another pass. -/
def foreignInput? (g : Graph) (r : InvocationRequest) : Option (String × Artifact) :=
  r.inputs.entries.find? fun (_, artifact) => artifact.pass != g.pass

/-- Adds an invocation and gives its id. -/
def add (g : Graph) (slot : Slot) (r : InvocationRequest) : Except GraphError (Graph × String) := do
  if !g.isOpen slot then throw (.inactivePipeline g.pipeline)
  if let some (input, artifact) := g.foreignInput? r then
    throw (.crossPipelineReference g.pipeline r.baseId input artifact.pipeline)
  if let some unknown := r.allPredecessors.keys.find? fun id => !g.contains id then
    throw (.unknownPredecessor g.pipeline r.baseId unknown)
  let id ← g.freeId r.baseId r.allowSuffix
  return (g.push (.ofRequest id r), id)

/-- Calls a step: adds the invocation if it fits the signature, and gives the outputs. -/
def call (g : Graph) (slot : Slot) (r : InvocationRequest) : Except Error (Graph × StepOutputs) :=
  match r.mismatch? with
  | some message => .error (.configuration (.invalidStepInputs g.pipeline r.baseId message))
  | none => match g.add slot r with
    | .error cause => .error (.graph cause)
    | .ok (g, id) => .ok (g, .ofOutputs id g.pipeline g.pass r.step.signature.outputs)

end Graph

end Pipework
