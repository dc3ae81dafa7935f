import Pipework.Document

/-!
# Errors

Each error is a cause with the names it concerns. `Error.message` gives its text, `Error.info?` a
stable code with a summary and a hint for the errors that a user can mend.
-/

namespace Pipework

/-- What can go wrong while steps are added to a pipeline. -/
inductive GraphError where
  | concurrentActivation (active requested : String)
  | inactivePipeline (pipeline : String)
  | crossPipelineReference (pipeline step input producerPipeline : String)
  | duplicateInvocation (pipeline id : String)
  | identifierExhaustion (pipeline base : String)
  | unknownPredecessor (pipeline step predecessor : String)
  deriving DecidableEq, Repr

/-- What can be wrong with definitions, configurations and arguments. -/
inductive ConfigurationError where
  | unknownSettingKey (pipeline key reason : String)
  | unknownStep (pipeline step : String)
  | unknownOutput (pipeline step output : String)
  | invalidStepInputs (pipeline step message : String)
  | missingMaterializer (pipeline step output typeName : String)
  | invalidHook (owner field reason : String)
  | invalidEntrypointArguments (pipeline message : String)
  | notPrepared (pipeline : String)
  | invalidRunConfiguration (sourceName message : String)
  | emptyName (kind : String)
  deriving DecidableEq, Repr

inductive StoreError where
  | notFound (entity key : String)
  | conflict (entity key : String)
  | backend (message : String)
  deriving DecidableEq, Repr

inductive StackError where
  | validation (stack pipeline reason : String)
  | deployment (stack pipeline reason : String)
  | backend (message : String)
  deriving DecidableEq, Repr

inductive Error where
  | graph (cause : GraphError)
  | configuration (cause : ConfigurationError)
  /-- A defect of the compiler rather than of its input. -/
  | compilation (pipeline message : String)
  | store (cause : StoreError)
  | stack (cause : StackError)
  | serialization (message : String)
  | io (message : String)
  deriving DecidableEq, Repr

/-- A stable code for an error, with advice. -/
structure ErrorInfo where
  code : String
  summary : String
  fixHint : Option String := none
  context : Dict String := .empty
  deriving DecidableEq

namespace ErrorInfo

def withFixHint (i : ErrorInfo) (hint : String) : ErrorInfo := { i with fixHint := hint }

def withContext (i : ErrorInfo) (key value : String) : ErrorInfo :=
  { i with context := i.context.insert key value }

instance : ToJson ErrorInfo where
  toJson i := Json.object <|
    Json.member "code" i.code ++ Json.member "summary" i.summary
      ++ Json.member "fix_hint" i.fixHint ++ Json.member "context" i.context

def read? {δ : Type} [Document δ] : Document.Reader δ ErrorInfo :=
  Document.record? do
    let code ← Document.Fields.required "code" Document.text?
    let summary ← Document.Fields.required "summary" Document.text?
    let fixHint ← Document.Fields.nullable "fix_hint" Document.text?
    let context ← Document.Fields.defaulted "context" (Document.dict? Document.text?) .empty
    pure { code, summary, fixHint, context }

end ErrorInfo

/-- A name in single quotes. -/
def quoted (s : String) : String := "'" ++ s ++ "'"

def GraphError.message : GraphError → String
  | .concurrentActivation active requested =>
    "Unable to activate pipeline " ++ quoted requested ++ ": pipeline " ++ quoted active
      ++ " is already active"
  | .inactivePipeline pipeline =>
    "Step invocations can only be added to the active pipeline, but pipeline " ++ quoted pipeline
      ++ " is not active"
  | .crossPipelineReference pipeline step input producerPipeline =>
    "Invalid input artifact " ++ quoted input ++ " for step " ++ quoted step ++ " in pipeline "
      ++ quoted pipeline ++ ": the artifact was produced by a step inside a different pipeline "
      ++ quoted producerPipeline
  | .duplicateInvocation pipeline id =>
    "Duplicate step invocation id " ++ quoted id ++ " in pipeline " ++ quoted pipeline
  | .identifierExhaustion pipeline base =>
    "Unable to find a unique invocation id for " ++ quoted base ++ " in pipeline "
      ++ quoted pipeline
  | .unknownPredecessor pipeline step predecessor =>
    "Step " ++ quoted step ++ " in pipeline " ++ quoted pipeline
      ++ " is configured to run after unknown step " ++ quoted predecessor

def GraphError.info : GraphError → ErrorInfo
  | .concurrentActivation active _ =>
    { code := "GRAPH-001-ACTIVE"
      summary := "Another pipeline is already active"
      fixHint := "Prepare pipelines one at a time; call other pipelines from inside an "
        ++ "entrypoint to compose them."
      context := .ofList [("active", active)] }
  | .inactivePipeline pipeline =>
    { code := "GRAPH-001-INACTIVE"
      summary := "Pipeline is not active"
      context := .ofList [("pipeline", pipeline)] }
  | .crossPipelineReference pipeline _ input _ =>
    { code := "GRAPH-003-CROSS_PIPELINE"
      summary := "Input artifact belongs to a different pipeline"
      fixHint := "Only pass artifacts produced by steps of the same pipeline."
      context := .ofList [("pipeline", pipeline), ("input", input)] }
  | .duplicateInvocation pipeline id =>
    { code := "GRAPH-002-DUPLICATE"
      summary := "Duplicate step invocation id"
      fixHint := "Pass a unique custom id or allow id suffixes."
      context := .ofList [("pipeline", pipeline), ("id", id)] }
  | .identifierExhaustion pipeline base =>
    { code := "GRAPH-002-EXHAUSTED"
      summary := "No unique invocation id left"
      context := .ofList [("pipeline", pipeline), ("base", base)] }
  | .unknownPredecessor pipeline _ predecessor =>
    { code := "GRAPH-004-MISSING_DEP"
      summary := "Upstream step not found"
      fixHint := "Ensure the upstream step is invoked before the step that runs after it."
      context := .ofList [("pipeline", pipeline), ("upstream", predecessor)] }

def ConfigurationError.message : ConfigurationError → String
  | .unknownSettingKey pipeline key reason =>
    "Invalid settings key " ++ quoted key ++ " for pipeline " ++ quoted pipeline ++ ": " ++ reason
  | .unknownStep pipeline step =>
    "Configuration for pipeline " ++ quoted pipeline ++ " references unknown step " ++ quoted step
  | .unknownOutput pipeline step output =>
    "Step " ++ quoted step ++ " of pipeline " ++ quoted pipeline ++ " has no output named "
      ++ quoted output
  | .invalidStepInputs pipeline step message =>
    "Invalid inputs for step " ++ quoted step ++ " of pipeline " ++ quoted pipeline ++ ": "
      ++ message
  | .missingMaterializer pipeline step output typeName =>
    "No materializer found for output " ++ quoted output ++ " (type " ++ quoted typeName
      ++ ") of step " ++ quoted step ++ " in pipeline " ++ quoted pipeline
  | .invalidHook owner field reason =>
    "Invalid " ++ field ++ " hook for " ++ quoted owner ++ ": " ++ reason
  | .invalidEntrypointArguments pipeline message =>
    "Invalid or missing inputs for the entrypoint of pipeline " ++ quoted pipeline ++ ": "
      ++ message
  | .notPrepared pipeline =>
    "Failed while trying to prepare pipeline " ++ quoted pipeline
      ++ ". The entrypoint of the pipeline requires arguments. "
      ++ "Please prepare the pipeline by calling `prepare(...)` and try again"
  | .invalidRunConfiguration sourceName message =>
    "Invalid run configuration " ++ quoted sourceName ++ ": " ++ message
  | .emptyName kind => kind ++ " name cannot be empty or whitespace-only"

def ConfigurationError.info : ConfigurationError → ErrorInfo
  | .unknownSettingKey .. =>
    { code := "CONFIG-001-SETTING_KEY"
      summary := "Unknown settings key"
      fixHint := "Use a general settings key or `<component_type>.<flavor>` of a component in the "
        ++ "active stack." }
  | .unknownStep .. =>
    { code := "CONFIG-002-UNKNOWN_STEP"
      summary := "Unknown step"
      fixHint := "Check the step ids in the run configuration." }
  | .unknownOutput .. => { code := "CONFIG-003-UNKNOWN_OUTPUT", summary := "Unknown step output" }
  | .invalidStepInputs .. => { code := "CONFIG-004-INPUTS", summary := "Invalid step inputs" }
  | .missingMaterializer .. =>
    { code := "CONFIG-005-MATERIALIZER"
      summary := "Missing materializer"
      fixHint := "Configure an output materializer or register a default materializer for the "
        ++ "output type." }
  | .invalidHook .. =>
    { code := "CONFIG-006-HOOK"
      summary := "Invalid hook"
      fixHint := "Use a source path of the form `module.function`." }
  | .invalidEntrypointArguments .. =>
    { code := "CONFIG-007-ARGUMENTS"
      summary := "Invalid entrypoint arguments"
      fixHint := "Only JSON serializable inputs are allowed as pipeline inputs." }
  | .notPrepared .. => { code := "CONFIG-008-NOT_PREPARED", summary := "Pipeline is not prepared" }
  | .invalidRunConfiguration .. =>
    { code := "CONFIG-009-RUN_CONFIG", summary := "Invalid run configuration" }
  | .emptyName .. => { code := "CONFIG-010-NAME", summary := "Empty name" }

def StoreError.message : StoreError → String
  | .notFound entity key => entity ++ " " ++ quoted key ++ " not found"
  | .conflict entity key => entity ++ " " ++ quoted key ++ " already exists"
  | .backend message => "Store backend error: " ++ message

def StackError.message : StackError → String
  | .validation stack pipeline reason =>
    "Stack " ++ quoted stack ++ " rejected deployment of pipeline " ++ quoted pipeline ++ ": "
      ++ reason
  | .deployment stack pipeline reason =>
    "Stack " ++ quoted stack ++ " failed to deploy pipeline " ++ quoted pipeline ++ ": " ++ reason
  | .backend message => "Stack backend error: " ++ message

/-- The name of each kind of error. -/
def GraphError.kind : GraphError → String
  | .concurrentActivation .. => "ConcurrentActivation"
  | .inactivePipeline .. => "InactivePipeline"
  | .crossPipelineReference .. => "CrossPipelineReference"
  | .duplicateInvocation .. => "DuplicateInvocation"
  | .identifierExhaustion .. => "IdentifierExhaustion"
  | .unknownPredecessor .. => "UnknownUpstreamStep"

/-- The name of each kind of error. -/
def ConfigurationError.kind : ConfigurationError → String
  | .unknownSettingKey .. => "UnknownSettingKey"
  | .unknownStep .. => "UnknownStep"
  | .unknownOutput .. => "UnknownOutput"
  | .invalidStepInputs .. => "InvalidStepInputs"
  | .missingMaterializer .. => "MissingMaterializer"
  | .invalidHook .. => "InvalidHook"
  | .invalidEntrypointArguments .. => "InvalidEntrypointArguments"
  | .notPrepared .. => "NotPrepared"
  | .invalidRunConfiguration .. => "InvalidRunConfiguration"
  | .emptyName .. => "EmptyName"

/-- The name of each kind of error. -/
def StoreError.kind : StoreError → String
  | .notFound .. => "NotFound"
  | .conflict .. => "Conflict"
  | .backend .. => "Backend"

/-- The name of each kind of error. -/
def StackError.kind : StackError → String
  | .validation .. => "Validation"
  | .deployment .. => "Deployment"
  | .backend .. => "Backend"

namespace Error

/-- The name of each kind of error, after the part of the system that it comes from. -/
def kind : Error → String
  | .graph cause => "Graph." ++ cause.kind
  | .configuration cause => "Configuration." ++ cause.kind
  | .compilation .. => "Compilation"
  | .store cause => "Store." ++ cause.kind
  | .stack cause => "Stack." ++ cause.kind
  | .serialization .. => "Serialization"
  | .io .. => "Io"

def message : Error → String
  | .graph cause => cause.message
  | .configuration cause => cause.message
  | .compilation pipeline message =>
    "Internal compilation error in pipeline " ++ quoted pipeline ++ ": " ++ message
  | .store cause => cause.message
  | .stack cause => cause.message
  | .serialization message => "Serialization error: " ++ message
  | .io message => "IO error: " ++ message

/-- The advice for an error that a user can mend. -/
def info? : Error → Option ErrorInfo
  | .graph cause => some cause.info
  | .configuration cause => some cause.info
  | _ => none

/-- Whether the user rather than the system has to act. -/
def isUserError : Error → Bool
  | .graph _ | .configuration _ => true
  | _ => false

end Error

end Pipework
