import Pipework.Json.Lenient
import Pipework.Sample.Training
import Pipework.Script.Basic

/-!
# Reading scripts

Steps, pipelines, scripts and stacks written as JSON objects. Fields that a definition does not
need may be left out; those that hold records of the library have to be written as the library
writes them.
-/

namespace Pipework.Script

/-- Why something that was asked for did not happen. -/
inductive Failure where
  | failed (cause : Error)
  /-- What was asked for is not of the form that it should be. -/
  | unreadable

/-- What is read from a definition. -/
abbrev Reading := Except Failure

variable {α : Type}

/-- The outcome of something that may fail. -/
def orFail : Except Error α → Reading α
  | .ok x => .ok x
  | .error e => .error (.failed e)

def readAs (read : Json → Option α) (v : Json) : Reading α :=
  match read v with
  | some x => .ok x
  | none => .error .unreadable

/-- The value of a field, none when it is missing or null. -/
def readField (read : Json → Reading α) (v : Json) (name : String) : Reading (Option α) :=
  match v.field name with
  | .null => .ok none
  | field => some <$> read field

def readOpt (read : Json → Option α) (v : Json) (name : String) : Reading (Option α) :=
  readField (readAs read) v name

/-- The value of a field, or a value for when it is missing or null. -/
def readOr (read : Json → Option α) (v : Json) (name : String) (default : α) : Reading α :=
  return (← readOpt read v name).getD default

def readDict (read : Json → Reading α) (v : Json) : Reading (Dict α) :=
  return .ofList (← v.pairs.mapM fun (k, x) => return (k, ← read x))

/-- A hook: a path, a source or the name of a function. -/
def readHook (v : Json) : Reading Hook :=
  if v.has "path" then .ok (.path (v.field "path").string)
  else if v.has "source" then return .source (← readAs Source.read? (v.field "source"))
  else .ok (.function (v.field "inline").string)

/-- Parameters with their defaults, null being a default like any other. -/
def readDefaults (v : Json) : Dict (Option Json) := v.dict.map (·.get? "default")

/-- A step, or why it cannot be built. -/
def readStep (v : Json) : Reading (Except Error Step) := do
  let materializers ← readDict (readAs Source.read?) (v.field "materializers")
  let draft : Step.Draft := {
    name := (v.field "name").string
    source := ← readOpt Source.read? v "source"
    sourceCode := (v.field "source_code").string
    docstring := (v.field "docstring").text?
    signature := {
      inputs := (v.field "inputs").dict.map Json.string
      outputs := (v.field "outputs").dict.map Json.string
      parameters := readDefaults (v.field "parameters") }
    defaults := {
      toggles := {
        cache := (v.field "enable_cache").bool?
        artifactMetadata := (v.field "enable_artifact_metadata").bool?
        artifactVisualization := (v.field "enable_artifact_visualization").bool? }
      experimentTracker := (v.field "experiment_tracker").text?
      stepOperator := (v.field "step_operator").text?
      outputs := materializers.map fun source => ⟨some source⟩
      settings := ← readOr Document.values? v "settings" .empty
      extra := ← readOr Document.values? v "extra" .empty }
    onFailure := ← readField readHook v "on_failure"
    onSuccess := ← readField readHook v "on_success" }
  return draft.build

def readExternal (v : Json) : Reading ExternalArtifact := do
  let content ← if v.has "id" then .stored <$> readAs Document.uuid? (v.field "id")
    else pure (ExternalArtifact.Content.value (v.field "value"))
  return { content, materializer := ← readOpt Source.read? v "materializer" }

def readExpr : Json → Expr
  | .obj [("$arg", .str name)] => .argument name
  | .obj [("$var", .str name)] => .kept name
  | v => .literal v

/-- An input: the variable of the outputs and, unless it is the only one, the name of the output. -/
def readInput (v : Json) : InputRef :=
  let names := v.strings
  { kept := names.headD "", output := (names.drop 1).head? }

def readStepCall (v : Json) : Reading StepCall := do
  return {
    step := (v.field "call").string
    inputs := (v.field "inputs").dict.map readInput
    externals := ← readDict readExternal (v.field "external")
    parameters := (v.field "params").dict.map readExpr
    after := (v.field "after").strings
    id := (v.field "id").text?
    allowSuffix := (v.field "allow_id_suffix").bool?.getD true
    configuration := ← readOr StepLayer.read? v "configure" ∅
    keepAs := (v.field "as").text? }

/-- A command, known by the field that names what it works on. -/
def readCommand (v : Json) : Reading Command :=
  let arguments := (v.field "args").dict.map readExpr
  let keepAs := (v.field "as").text?
  if v.has "call" then .callStep <$> readStepCall v
  else if v.has "nested" then .ok (.nested (v.field "nested").string arguments keepAs)
  else if v.has "pcall" then .ok (.callPipeline (v.field "pcall").string arguments keepAs)
  else if v.has "prepare" then .ok (.prepare (v.field "prepare").string arguments)
  else if v.has "outputs" then .ok (.noteOutputs (v.field "outputs").string)
  else if v.has "fail" then .ok (.fail (v.field "fail").string)
  else .ok .noteView

def readAction (v : Json) : Reading Action :=
  return { command := ← readCommand v, caught := (v.field "try").flag }

/-- Sets a hook if there is one. -/
def readPipelineHook (v : Json) (name : String) (set : Hook → Except Error Pipeline)
    (p : Pipeline) : Reading Pipeline := do
  match ← readField readHook v name with
  | some hook => orFail (set hook)
  | none => return p

/-- A pipeline with a script for its entrypoint, or the sample pipeline. -/
def readPipeline (v : Json) : Reading NamedPipeline := do
  let sourceCode := (v.field "source_code").text?
  if v.has "fixture" then
    return {
      pipeline := sourceCode.elim Sample.training Sample.training.withSourceCode
      entrypoint := .program Sample.entry }
  let p := Pipeline.ofName (v.field "name").string
  let p := (readDefaults (v.field "params")).entries.foldl (fun p (k, x) => p.withParameter k x) p
  let p := (← readOpt Source.read? v "source").elim p p.withSource
  let p := sourceCode.elim p p.withSourceCode
  let p := (v.field "docstring").text?.elim p p.withDocstring
  let p ← readPipelineHook v "on_failure" p.onFailure p
  let p ← readPipelineHook v "on_success" p.onSuccess p
  let actions ← (v.field "body").list.mapM readAction
  let returns := readExpr (v.field "returns")
  return { pipeline := p, entrypoint := .script { actions, returns } }

/-- The request that a stack refuses, and how, such as `deploy:backend`. -/
def readRefusal? (s : String) : Option (StackRequest × Refusal) :=
  let kind? : String → Option Refusal
    | "validation" => some .validation
    | "deployment" => some .deployment
    | "backend" => some .backend
    | _ => none
  match s.splitOn ":" with
  | ["prepare", kind] => (kind? kind).map (.prepare, ·)
  | ["deploy", kind] => (kind? kind).map (.deploy, ·)
  | _ => none

/-- A stack with build requirements of its own. -/
def readStack (v : Json) : Reading Stack := do
  return .scripted (← readAs Document.uuid? (v.field "id")) (v.nameAt "name" "scripted")
    (v.field "keys").strings (← readOr (Document.list? BuildRequirement.read?) v "requirements" [])
    (v.field "step_build_key").text? (readRefusal? (v.field "fail").string)

/-- What a repository is found to hold; the field tells where its id is. -/
def readCheckout (v : Json) (id : String) : Reading Checkout := do
  return {
    repository := ← readAs Document.uuid? (v.field id)
    root := (v.field "root").string
    commit := (v.field "commit").string
    dirty := (v.field "dirty").flag }

end Pipework.Script
