import Pipework.Proofs.Graph.Coherent
import Pipework.Proofs.Dict.Filling

/-!
# Calls that fit their steps

A call that fits gives every declared input once, from a step or from outside, and sets declared
parameters only. Graphs that are built by calls hold no other invocations.
-/

namespace Pipework

/-- Inputs, external inputs and parameters as a signature asks for them. -/
structure Signature.Fits (s : Signature) (inputs : Dict Artifact)
    (externals : Dict ExternalArtifact) (parameters : Dict Json) : Prop where
  /-- No input is given twice. -/
  disjoint : inputs.keys.Disjoint externals.keys
  /-- The inputs that are given are the ones that are declared. -/
  inputs : ∀ name, name ∈ inputs.keys ∨ name ∈ externals.keys ↔ name ∈ s.inputs.keys
  parameters : ∀ name ∈ parameters.keys, name ∈ s.parameters.keys

/-- The invocation fits the signature of its step. -/
def Invocation.Fits (i : Invocation) : Prop :=
  i.step.signature.Fits i.inputs i.externals i.parameters

namespace InvocationRequest

variable {r : InvocationRequest}

theorem supplies_iff {name : String} :
    r.supplies name = true ↔ name ∈ r.inputs.keys ∨ name ∈ r.externals.keys := by
  rw [supplies, Bool.or_eq_true, Dict.contains_iff, Dict.contains_iff]

/-- Nothing is wrong with a request if and only if it fits. -/
theorem mismatch?_eq_none_iff :
    r.mismatch? = none ↔ r.step.signature.Fits r.inputs r.externals r.parameters := by
  have hdeclared : ((r.inputs.keys ++ r.externals.keys).find?
        fun name => !r.step.signature.inputs.contains name) = none
      ↔ ∀ name, name ∈ r.inputs.keys ∨ name ∈ r.externals.keys →
        name ∈ r.step.signature.inputs.keys := by
    simp [Dict.contains_iff, or_imp, forall_and]
  have htwice : r.inputs.keys.find? r.externals.contains = none
      ↔ r.inputs.keys.Disjoint r.externals.keys := by
    simp [← Dict.contains_iff, List.Disjoint]
  have hmissing : (r.step.signature.inputs.keys.find? fun name => !r.supplies name) = none
      ↔ ∀ name ∈ r.step.signature.inputs.keys, name ∈ r.inputs.keys ∨ name ∈ r.externals.keys := by
    simp [supplies_iff]
  have hparameters : r.parameters.firstUnknown? r.step.signature.parameters = none
      ↔ ∀ name ∈ r.parameters.keys, name ∈ r.step.signature.parameters.keys :=
    Dict.firstUnknown?_eq_none_iff
  have hnone : r.mismatch? = none ↔
      ((r.inputs.keys ++ r.externals.keys).find?
        fun name => !r.step.signature.inputs.contains name) = none
      ∧ r.inputs.keys.find? r.externals.contains = none
      ∧ (r.step.signature.inputs.keys.find? fun name => !r.supplies name) = none
      ∧ r.parameters.firstUnknown? r.step.signature.parameters = none := by
    unfold mismatch?
    grind
  rw [hnone, hdeclared, htwice, hmissing, hparameters]
  constructor
  · rintro ⟨hdeclared, hdisjoint, hmissing, hknown⟩
    exact ⟨hdisjoint, fun name => ⟨hdeclared name, hmissing name⟩, hknown⟩
  · rintro ⟨hdisjoint, hinputs, hknown⟩
    exact ⟨fun name => (hinputs name).1, hdisjoint, fun name => (hinputs name).2, hknown⟩

end InvocationRequest

namespace Graph

variable {g g' : Graph} {slot : Slot} {r : InvocationRequest} {outputs : StepOutputs}

/-- All invocations fit. -/
def Fitting (g : Graph) : Prop := ∀ i ∈ g.invocations, i.Fits

theorem Fitting.new (pipeline : String) (pass : Uuid) (detached : Bool) :
    Fitting { pipeline, pass, detached } := by
  simp [Fitting]

theorem Fitting.call (h : g.Fitting) (hcall : g.call slot r = .ok (g', outputs)) : g'.Fitting := by
  obtain ⟨hfits, id, hadd, -⟩ := call_eq_ok_iff.1 hcall
  obtain ⟨-, rfl⟩ := add_eq_ok_iff.1 hadd
  intro i hi
  rcases Array.mem_push.1 hi with hi | rfl
  · exact h i hi
  · exact InvocationRequest.mismatch?_eq_none_iff.1 hfits

end Graph

end Pipework
