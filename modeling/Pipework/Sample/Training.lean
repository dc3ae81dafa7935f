import Pipework.Program.Workflow

/-!
# A sample pipeline

A pipeline that loads a dataset, trains a model and evaluates it.
-/

namespace Pipework.Sample

def loader : Except Error Step := Step.Draft.build {
  name := "loader"
  source := some { modulePath := "steps.data", attributeName := "loader" }
  sourceCode := "def loader(rows: int = 100) -> dict:\n    return \x7b\"rows\": rows\x7d\n"
  signature := {
    outputs := .ofList [("dataset", "dict")]
    parameters := .ofList [("rows", some (.ofNat 100))] } }

/-- The double `0.01`. -/
def learningRate : Json := .num (.double 0x3F847AE147AE147B)

def trainer : Except Error Step := Step.Draft.build {
  name := "trainer"
  source := some { modulePath := "steps.training", attributeName := "trainer" }
  sourceCode :=
    "def trainer(dataset: dict, lr: float = 0.01) -> dict:\n    return \x7b\"weights\": [lr]\x7d\n"
  signature := {
    inputs := .ofList [("dataset", "dict")]
    outputs := .ofList [("model", "dict")]
    parameters := .ofList [("lr", some learningRate)] } }

def evaluator : Except Error Step := Step.Draft.build {
  name := "evaluator"
  source := some { modulePath := "steps.training", attributeName := "evaluator" }
  sourceCode :=
    "def evaluator(model: dict, dataset: dict) -> dict:\n    return \x7b\"accuracy\": 1.0\x7d\n"
  signature := {
    inputs := .ofList [("model", "dict"), ("dataset", "dict")]
    outputs := .ofList [("metrics", "dict")] } }

variable {σ : Type}

/-- Calls a step and goes on with one of its outputs. -/
def callStep (step : Except Error Step) (request : Step → InvocationRequest) (output : String)
    (next : Artifact → Program σ) : Program σ :=
  match step with
  | .error e => .done (.error e)
  | .ok step => .invoke (request step) fun result =>
    match result.bind (·.get output) with
    | .error e => .done (.error e)
    | .ok artifact => next artifact

/-- Loads, trains, evaluates, and gives back the number of rows. -/
def entry (arguments : Dict Json) : Program σ :=
  let rows := (arguments.get? "rows").getD .null
  callStep loader (fun step => { step, parameters := .ofList [("rows", rows)] }) "dataset"
    fun dataset =>
  callStep trainer (fun step => { step, inputs := .ofList [("dataset", dataset)] }) "model"
    fun model =>
  callStep evaluator
    (fun step => { step, inputs := .ofList [("model", model), ("dataset", dataset)] }) "metrics"
    fun _ => .done (.ok rows)

def training : Pipeline :=
  (Pipeline.ofName "training")
    |>.withSource { modulePath := "pipelines.training", attributeName := "training" }
    |>.withSourceCode ("def training(rows: int = 100):\n    data = loader(rows=rows)\n"
      ++ "    model = trainer(data)\n    evaluator(model, data)\n")
    |>.withParameter "rows" (some (.ofNat 100))

end Pipework.Sample
