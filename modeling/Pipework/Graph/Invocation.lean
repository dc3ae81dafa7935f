import Pipework.Step.Artifact
import Pipework.Step.Basic

/-!
# Invocations

An invocation is one use of a step in a pipeline, with its inputs, parameters and configuration.
-/

namespace Pipework

/-- An invocation that is to be added to a graph. -/
structure InvocationRequest where
  step : Step
  /-- Inputs that other invocations produce. -/
  inputs : Dict Artifact := .empty
  externals : Dict ExternalArtifact := .empty
  parameters : Dict Json := .empty
  /-- Invocations to run after. -/
  predecessors : NameSet := .empty
  /-- An id to use in place of the name of the step. -/
  customId : Option String := none
  /-- Whether a number may follow an id that is taken. -/
  allowSuffix : Bool := true
  configuration : StepLayer := ∅
  deriving DecidableEq

namespace InvocationRequest

/-- The id before any number is put after it. -/
def baseId (r : InvocationRequest) : String := r.customId.getD r.step.name

/-- The invocations that produce the inputs. -/
def producers (r : InvocationRequest) : List String := r.inputs.values.map (·.producer)

/-- All invocations to run after: those asked for and the producers of the inputs. -/
def allPredecessors (r : InvocationRequest) : NameSet := r.predecessors.addAll r.producers

/-- Whether there is an artifact for an input. -/
def supplies (r : InvocationRequest) (name : String) : Bool :=
  r.inputs.contains name || r.externals.contains name

/-- Why the call does not fit the signature of the step. -/
def mismatch? (r : InvocationRequest) : Option String :=
  let s := r.step.signature
  match (r.inputs.keys ++ r.externals.keys).find? fun name => !s.inputs.contains name with
  | some name => some ("the step has no input named " ++ quoted name)
  | none => match r.inputs.keys.find? r.externals.contains with
    | some name => some ("input " ++ quoted name ++ " was supplied twice")
    | none =>
      match s.inputs.keys.find? fun name => !r.supplies name with
      | some name => some ("missing input " ++ quoted name)
      | none => match r.parameters.firstUnknown? s.parameters with
        | some name => some ("the step has no parameter named " ++ quoted name)
        | none => none

end InvocationRequest

structure Invocation where
  id : String
  step : Step
  inputs : Dict Artifact
  externals : Dict ExternalArtifact
  parameters : Dict Json
  /-- All invocations that this one depends on. -/
  predecessors : NameSet
  configuration : StepLayer
  deriving DecidableEq

namespace Invocation

def ofRequest (id : String) (r : InvocationRequest) : Invocation where
  id
  step := r.step
  inputs := r.inputs
  externals := r.externals
  parameters := r.parameters
  predecessors := r.allPredecessors
  configuration := r.configuration

/-- The invocations that produce the inputs, in the order of the input names. -/
def producers (i : Invocation) : List String := i.inputs.values.map (·.producer)

end Invocation

end Pipework
