import Mathlib.Algebra.Group.End
import Pipework.Proofs.Graph.Coherent

/-!
# Renaming preparation passes

A permutation of the identifiers gives each preparation pass another one. Calls of steps do not
notice: the graph, the request and what comes of it are all renamed (`Graph.call_rename`). So a
graph compares passes, and does nothing else with them.
-/

namespace Pipework

variable (π : Equiv.Perm Uuid)

/-! ## Renaming -/

def Artifact.rename (a : Artifact) : Artifact := { a with pass := π a.pass }

def InvocationRequest.rename (r : InvocationRequest) : InvocationRequest :=
  { r with inputs := r.inputs.map (Artifact.rename π) }

def Invocation.rename (i : Invocation) : Invocation :=
  { i with inputs := i.inputs.map (Artifact.rename π) }

def StepOutputs.rename (o : StepOutputs) : StepOutputs :=
  { o with artifacts := o.artifacts.map (Artifact.rename π) }

def Activation.rename (a : Activation) : Activation := { a with pass := π a.pass }

def Slot.rename (slot : Slot) : Slot := slot.map (Activation.rename π)

def Graph.rename (g : Graph) : Graph :=
  { g with pass := π g.pass, invocations := g.invocations.map (Invocation.rename π) }

/-! ## Requests -/

namespace InvocationRequest

variable {π} (r : InvocationRequest)

@[simp] theorem step_rename : (r.rename π).step = r.step := rfl

@[simp] theorem baseId_rename : (r.rename π).baseId = r.baseId := rfl

@[simp] theorem allowSuffix_rename : (r.rename π).allowSuffix = r.allowSuffix := rfl

@[simp] theorem producers_rename : (r.rename π).producers = r.producers := by
  have hproducer : Artifact.producer ∘ Artifact.rename π = Artifact.producer := rfl
  simp only [producers, rename, Dict.values_map, List.map_map, hproducer]

@[simp] theorem allPredecessors_rename : (r.rename π).allPredecessors = r.allPredecessors := by
  rw [allPredecessors, producers_rename, allPredecessors]
  rfl

/-- Whether a call fits its step does not depend on passes. -/
@[simp] theorem mismatch?_rename : (r.rename π).mismatch? = r.mismatch? := by
  have hsupplies : (r.rename π).supplies = r.supplies := by
    funext name
    simp only [supplies, rename, Dict.contains_map]
  simp only [mismatch?, hsupplies]
  simp only [rename, Dict.keys_map]

@[simp] theorem ofRequest_rename (id : String) :
    Invocation.ofRequest id (r.rename π) = (Invocation.ofRequest id r).rename π := by
  rw [Invocation.ofRequest, allPredecessors_rename]
  rfl

end InvocationRequest

@[simp] theorem Invocation.id_rename {π} (i : Invocation) : (i.rename π).id = i.id := rfl

@[simp] theorem StepOutputs.ofOutputs_rename {π} (invocation pipeline : String) (pass : Uuid)
    (outputs : Dict String) :
    (ofOutputs invocation pipeline pass outputs).rename π
      = ofOutputs invocation pipeline (π pass) outputs := by
  simp only [rename, ofOutputs, Dict.map, Dict.mapWithKey, List.map_map]
  rfl

theorem StepOutputs.get_rename {π} (o : StepOutputs) (output : String) :
    (o.rename π).get output = (o.get output).map (.rename π) := by
  simp only [get, rename, Dict.get?_map]
  cases o.artifacts.get? output <;> rfl

/-! ## Graphs -/

namespace Slot

variable {π}

theorem isActive_rename (slot : Slot) (pass : Uuid) :
    (slot.rename π).isActive (π pass) = slot.isActive pass := by
  cases slot <;> simp [rename, isActive, Activation.rename]

@[simp] theorem isSome_rename (slot : Slot) : (slot.rename π).isSome = slot.isSome := by
  rw [rename, Option.isSome_map]

end Slot

namespace Graph

variable {π} (g : Graph) (slot : Slot) (r : InvocationRequest)

@[simp] theorem pipeline_rename : (g.rename π).pipeline = g.pipeline := rfl

@[simp] theorem pass_rename : (g.rename π).pass = π g.pass := rfl

@[simp] theorem size_rename : (g.rename π).size = g.size := by
  simp [size, rename]

@[simp] theorem contains_rename (id : String) : (g.rename π).contains id = g.contains id := rfl

@[simp] theorem freeId_rename (base : String) (allowSuffix : Bool) :
    (g.rename π).freeId base allowSuffix = g.freeId base allowSuffix := rfl

theorem get?_rename (id : String) : (g.rename π).get? id = (g.get? id).map (.rename π) := by
  simp only [get?, rename]
  cases g.index[id]? <;> simp

@[simp] theorem push_rename (i : Invocation) :
    (g.push i).rename π = (g.rename π).push (i.rename π) := by
  simp [push, rename]

@[simp] theorem isOpen_rename : (g.rename π).isOpen (slot.rename π) = g.isOpen slot := by
  simp only [isOpen, pass_rename, Slot.isActive_rename]
  rfl

/-- The same input is foreign, since different passes have different names. -/
@[simp] theorem foreignInput?_rename : (g.rename π).foreignInput? (r.rename π)
    = (g.foreignInput? r).map fun (name, artifact) => (name, artifact.rename π) := by
  have hsame : (fun e : String × Artifact => (e.2.rename π).pass != π g.pass)
      = fun e => e.2.pass != g.pass := by
    funext e
    simp [Artifact.rename, bne]
  simp only [foreignInput?, InvocationRequest.rename, Dict.map, Dict.mapWithKey, List.find?_map,
    pass_rename, Function.comp_def, hsame]

@[simp] theorem unknown?_rename : (g.rename π).unknown? (r.rename π) = g.unknown? r := by
  simp only [unknown?, InvocationRequest.allPredecessors_rename, contains_rename]

theorem add_rename : (g.rename π).add (slot.rename π) (r.rename π)
    = (g.add slot r).map fun (g, id) => (g.rename π, id) := by
  simp only [add_eq, isOpen_rename, foreignInput?_rename, unknown?_rename, freeId_rename,
    InvocationRequest.baseId_rename, InvocationRequest.allowSuffix_rename, pipeline_rename]
  cases g.isOpen slot with
  | false => rfl
  | true =>
    cases g.foreignInput? r with
    | some input => rfl
    | none =>
      cases g.unknown? r with
      | some p => rfl
      | none => cases g.freeId r.baseId r.allowSuffix <;> simp [Except.map]

/-- A renamed graph takes a renamed call where the graph takes the call, for the same reasons if it
does not. -/
theorem call_rename : (g.rename π).call (slot.rename π) (r.rename π)
    = (g.call slot r).map fun (g, outputs) => (g.rename π, outputs.rename π) := by
  simp only [call, InvocationRequest.mismatch?_rename, add_rename]
  cases r.mismatch? with
  | some message => rfl
  | none =>
    rcases hadd : g.add slot r with cause | ⟨g', id⟩
    · rfl
    · obtain ⟨-, rfl⟩ := add_eq_ok_iff.1 hadd
      simp [Except.map]

end Graph

end Pipework
