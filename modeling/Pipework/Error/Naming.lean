import Pipework.Error

/-!
# Errors by name

An error can be given by the name of its kind and the texts of its fields. Kinds that stores and
stacks share are told apart by a name in front.
-/

namespace Pipework.Error

/-- The error of a kind, with what a function gives for each field. Names that stand for no other
kind give an error of serialization. -/
def ofName (name : String) (field : String → String) : Error :=
  let pipeline := field "pipeline"
  let step := field "step"
  let message := field "message"
  let reason := field "reason"
  match name with
  | "ConcurrentActivation" => .graph (.concurrentActivation (field "active") (field "requested"))
  | "InactivePipeline" => .graph (.inactivePipeline pipeline)
  | "CrossPipelineReference" =>
    .graph (.crossPipelineReference pipeline step (field "input") (field "producer_pipeline"))
  | "DuplicateInvocation" => .graph (.duplicateInvocation pipeline (field "id"))
  | "IdentifierExhaustion" => .graph (.identifierExhaustion pipeline (field "base"))
  | "UnknownUpstreamStep" => .graph (.unknownPredecessor pipeline step (field "upstream"))
  | "UnknownSettingKey" => .configuration (.unknownSettingKey pipeline (field "key") reason)
  | "UnknownStep" => .configuration (.unknownStep pipeline step)
  | "UnknownOutput" => .configuration (.unknownOutput pipeline step (field "output"))
  | "InvalidStepInputs" => .configuration (.invalidStepInputs pipeline step message)
  | "MissingMaterializer" =>
    .configuration (.missingMaterializer pipeline step (field "output") (field "type_name"))
  | "InvalidHook" => .configuration (.invalidHook (field "owner") (field "field") reason)
  | "InvalidEntrypointArguments" => .configuration (.invalidEntrypointArguments pipeline message)
  | "NotPrepared" => .configuration (.notPrepared pipeline)
  | "InvalidRunConfiguration" =>
    .configuration (.invalidRunConfiguration (field "source_name") message)
  | "EmptyName" => .configuration (.emptyName (field "name_kind"))
  | "Compilation" => .compilation pipeline message
  | "NotFound" => .store (.notFound (field "entity") (field "key"))
  | "Conflict" => .store (.conflict (field "entity") (field "key"))
  | "StoreBackend" => .store (.backend message)
  | "Validation" => .stack (.validation (field "stack") pipeline reason)
  | "Deployment" => .stack (.deployment (field "stack") pipeline reason)
  | "StackBackend" => .stack (.backend message)
  | "Io" => .io message
  | _ => .serialization message

end Pipework.Error
