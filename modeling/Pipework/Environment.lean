import Pipework.Document

/-!
# The environment

Variables of the environment switch off execution or registration, name the default user and
workspace, and choose how to log.
-/

namespace Pipework

/-- Settings of the environment. -/
structure Environment where
  preventPipelineExecution : Bool := false
  skipPipelineRegistration : Bool := false
  defaultUserName : String := "default"
  defaultWorkspaceName : String := "default"
  defaultUserPassword : Option String := none
  loggingVerbosity : Option String := none
  jsonLogs : Bool := false
  deriving DecidableEq, Repr, Inhabited

namespace Environment

/-- The truth value of a word, in any case and with blanks around it. -/
def flag? (value : String) : Option Bool :=
  let word := Text.lower (Text.trim value)
  if ["1", "true", "yes", "on"].contains word then some true
  else if ["0", "false", "no", "off", ""].contains word then some false
  else none

/-- Reads the variables, given by a look-up; a switch that is no truth value is off. -/
def ofVariables (lookUp : String → Option String) : Environment :=
  let isOn (name : String) := ((lookUp name).bind flag?).getD false
  { preventPipelineExecution := isOn "STEPFLOW_PREVENT_PIPELINE_EXECUTION"
    skipPipelineRegistration := isOn "STEPFLOW_SKIP_PIPELINE_REGISTRATION"
    defaultUserName := (lookUp "STEPFLOW_DEFAULT_USER_NAME").getD "default"
    defaultWorkspaceName := (lookUp "STEPFLOW_DEFAULT_WORKSPACE_NAME").getD "default"
    defaultUserPassword := lookUp "STEPFLOW_DEFAULT_USER_PASSWORD"
    loggingVerbosity := lookUp "STEPFLOW_LOGGING_VERBOSITY"
    jsonLogs := ((lookUp "STEPFLOW_LOGGING_FORMAT").map Text.lower) == some "json" }

instance : ToJson Environment where
  toJson e := Json.object <|
    Json.member "prevent_pipeline_execution" e.preventPipelineExecution
      ++ Json.member "skip_pipeline_registration" e.skipPipelineRegistration
      ++ Json.member "default_user_name" e.defaultUserName
      ++ Json.member "default_workspace_name" e.defaultWorkspaceName
      ++ Json.member "default_user_password" e.defaultUserPassword
      ++ Json.member "logging_verbosity" e.loggingVerbosity
      ++ Json.member "json_logs" e.jsonLogs

def read? {δ : Type} [Document δ] : Document.Reader δ Environment :=
  Document.record? do
    let preventPipelineExecution ←
      Document.Fields.required "prevent_pipeline_execution" Document.bool?
    let skipPipelineRegistration ←
      Document.Fields.required "skip_pipeline_registration" Document.bool?
    let defaultUserName ← Document.Fields.required "default_user_name" Document.text?
    let defaultWorkspaceName ← Document.Fields.required "default_workspace_name" Document.text?
    let defaultUserPassword ← Document.Fields.nullable "default_user_password" Document.text?
    let loggingVerbosity ← Document.Fields.nullable "logging_verbosity" Document.text?
    let jsonLogs ← Document.Fields.required "json_logs" Document.bool?
    pure { preventPipelineExecution, skipPipelineRegistration, defaultUserName,
           defaultWorkspaceName, defaultUserPassword, loggingVerbosity, jsonLogs }

end Environment

/-- How the library logs. -/
structure Logging where
  filter : String := "info"
  json : Bool := false
  withTarget : Bool := true
  deriving DecidableEq, Repr, Inhabited

/-- The verbosity of the environment is the filter, `info` when there is none. -/
def Logging.ofEnvironment (e : Environment) : Logging :=
  { filter := e.loggingVerbosity.getD "info", json := e.jsonLogs }

end Pipework
