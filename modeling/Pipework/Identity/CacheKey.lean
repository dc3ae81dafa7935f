import Pipework.Deployment.Basic
import Pipework.Digest.Sha256
import Pipework.Error
import Pipework.Identity.VersionHash
import Pipework.Json.Printer

/-!
# Cache keys

The cache key of a step is a digest of everything its results depend on: its source and source
text, its inputs, parameters and cache switch, and the keys of all steps it depends on. So a
change of one step changes the keys of that step and of those after it.

A `CacheKey.Engine` remembers the keys it has computed until the inputs of a step change.
-/

namespace Pipework.CacheKey

/-- What decides the key of one step. -/
structure Inputs where
  /-- The import path of the step. -/
  source : String := ""
  sourceCode : String := ""
  /-- For each input fed by a step the id of the invocation and the output. -/
  artifacts : Dict (String × String) := .empty
  /-- For each external input the hash of its content. -/
  externals : Dict String := .empty
  parameters : Dict Json := .empty
  /-- The ids of the invocations that run before. -/
  predecessors : NameSet := .empty
  cacheEnabled : Bool := false
  deriving DecidableEq

namespace Inputs

/-- The ids of the invocations whose keys are part of the key. -/
def dependencies (i : Inputs) : List String := i.predecessors.keys ++ i.artifacts.values.map (·.1)

/-- What is digested, given the keys of the dependencies. -/
def message (i : Inputs) (key : String → String) : String :=
  i.source ++ i.sourceCode
    ++ String.join (i.artifacts.entries.map fun (name, producer, output) =>
      name ++ key producer ++ output)
    ++ String.join (i.externals.entries.map fun (name, hash) => name ++ hash)
    ++ (Json.ofDict i.parameters).compact
    ++ String.join (i.predecessors.keys.map key)
    ++ if i.cacheEnabled then "cache:1" else "cache:0"

end Inputs

/-- Keys by the id of the invocation. -/
abbrev Keys := Dict String

/-- The steps of one pipeline and the keys computed so far. -/
structure Engine where
  pipeline : String
  steps : Dict Inputs := .empty
  keys : Keys := .empty

def cycle (pipeline id : String) : Error :=
  .compilation pipeline ("cycle detected at step '" ++ id ++ "'")

def unknownStep (pipeline id : String) : Error :=
  .compilation pipeline ("unknown step '" ++ id ++ "'")

/-- Runs a computation that adds keys for each of several ids, up to the first failure. -/
def each (f : String → Keys → Except Error Unit × Keys) :
    List String → Keys → Except Error Unit × Keys
  | [], keys => (.ok (), keys)
  | id :: ids, keys => match f id keys with
    | (.ok (), keys) => each f ids keys
    | failed => failed

/-- Adds the key of a step, after the keys of the steps it depends on. The path holds the steps
that are waiting for this key; the first argument bounds its length. -/
def compute (pipeline : String) (steps : Dict Inputs) :
    Nat → List String → String → Keys → Except Error Unit × Keys
  | fuel, path, id, keys =>
    if keys.contains id then (.ok (), keys)
    else if path.contains id then (.error (cycle pipeline id), keys)
    else match steps.get? id, fuel with
      | none, _ => (.error (unknownStep pipeline id), keys)
      | some _, 0 => (.error (cycle pipeline id), keys)
      | some inputs, fuel + 1 =>
        match each (compute pipeline steps fuel (id :: path)) inputs.dependencies keys with
        | (.ok (), keys) =>
          let key := Digest.sha256Hex (inputs.message fun d => (keys.get? d).getD "")
          (.ok (), keys.insert id key)
        | failed => failed

namespace Engine

/-- The engine with new inputs for a step. Keys that might depend on them are forgotten. -/
def insert (e : Engine) (id : String) (inputs : Inputs) : Engine :=
  { e with steps := e.steps.insert id inputs, keys := .empty }

/-- The key of a step, and the engine that remembers it. -/
def key (e : Engine) (id : String) : Except Error String × Engine :=
  match compute e.pipeline e.steps e.steps.size [] id e.keys with
  | (.ok (), keys) => (.ok ((keys.get? id).getD ""), { e with keys })
  | (.error cause, keys) => (.error cause, { e with keys })

/-- The keys of all steps, computed in ascending order of their ids. -/
def allKeys (e : Engine) : Except Error Keys × Engine :=
  match each (compute e.pipeline e.steps e.steps.size []) e.steps.keys e.keys with
  | (.ok (), keys) =>
    (.ok (e.steps.mapWithKey fun id _ => (keys.get? id).getD ""), { e with keys })
  | (.error cause, keys) => (.error cause, { e with keys })

/-- The inputs that a step of a deployment gives. -/
def inputsOf (step : DeploymentStep) (sourceCode : String) : Inputs where
  source := step.spec.source.importPath
  sourceCode
  artifacts := step.spec.inputs.map fun i => (i.producer, i.output)
  externals := step.config.externalInputs.map (·.contentHash)
  parameters := step.config.parameters
  predecessors := .ofList step.spec.predecessors
  cacheEnabled := step.config.cacheEnabled

/-- The engine of a deployment, given the source texts of its steps. -/
def ofDeployment (d : Deployment) (source? : String → Option String) : Except Error Engine :=
  d.steps.foldlM (fun e step => match source? step.config.name with
    | some text => .ok (e.insert step.config.name (inputsOf step text))
    | none => .error (Spec.missingSource d.configuration.name step.config.name))
    { pipeline := d.configuration.name }

end Engine

end Pipework.CacheKey
