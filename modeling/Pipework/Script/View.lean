import Pipework.Json.Lenient
import Pipework.Script.Basic

/-!
# Views

What a session shows of invocations, pipelines, stacks, records and errors, as JSON.
-/

namespace Pipework

/-- A step is shown by its name. -/
instance : ToJson Invocation where
  toJson i := Json.object <|
    Json.member "id" i.id ++ Json.member "step" i.step.name
      ++ Json.member "inputs" (i.inputs.map fun a => Json.object <|
        Json.member "step" a.producer ++ Json.member "output" a.output
          ++ Json.member "pipeline" a.pipeline)
      ++ Json.member "external" (i.externals.map ExternalArtifact.resolve)
      ++ Json.member "parameters" i.parameters ++ Json.member "upstream" i.predecessors.keys
      ++ Json.member "configuration" i.configuration

instance : ToJson Graph := ⟨fun g => toJson g.invocations.toList⟩

instance : ToJson Pipeline where
  toJson p := Json.object <|
    Json.member "name" p.name ++ Json.member "prepared" p.isPrepared
      ++ Json.member "requires_parameters" p.definition.requiresParameters
      ++ Json.member "arguments" p.arguments ++ Json.member "docstring" p.definition.docstring
      ++ Json.member "declared" p.definition.parameters
      ++ Json.member "source" p.definition.source.importPath
      ++ Json.member "configuration" p.configuration
      ++ Json.member "ids" (p.graph.map Graph.ids) ++ Json.member "invocations" p.graph

namespace Script

/-- An error with its text, but without texts that come from the system or from a reader of YAML. -/
def errorView (e : Error) : Json :=
  let message := Json.member "message" e.message
  let text := match e with
    | .io _ => []
    | .configuration (.invalidRunConfiguration name _) =>
      Json.member "source_name" (if name.startsWith "/" then "<file>" else name)
        ++ if name.startsWith "schedule of pipeline" then message else []
    | _ => message
  Json.object <|
    Json.member "error" e.kind ++ Json.member "user_error" e.isUserError
      ++ Json.member "info" e.info? ++ text

/-- A record without the time of its creation. -/
def recordView {α : Type} [RecordBody α] (r : Record α) : Json :=
  Json.object (Json.member "id" r.id ++ RecordBody.members r.body)

/-- A schedule record. The digits of a name that nobody chose are hidden, as they tell the time. -/
def scheduleView (r : Record ScheduleEntry) : Json :=
  let hidden := r.body.name.map fun c => if c.isDigit then '0' else c
  recordView (if r.body.schedule.name.isSome then r else
    { r with body := { r.body with name := hidden } })

def outcomeView : RunOutcome → Json
  | .suppressed => Json.object (Json.member "outcome" "suppressed")
  | .dispatched r => Json.object <|
    Json.member "outcome" "dispatched" ++ Json.member "pipeline" (r.pipeline.map recordView)
      ++ Json.member "schedule" (r.schedule.map scheduleView)
      ++ Json.member "build" (r.build.map recordView)
      ++ Json.member "deployment" (recordView r.deployment)

/-- A stack with its components in the order of their keys. -/
def stackView (m : StackModel) : Json := Json.object <|
  Json.member "id" m.id ++ Json.member "name" m.name ++ Json.member "workspace" m.workspace
    ++ Json.member "components" (m.components.entries.map fun (k, c) =>
      [k, c.componentType, c.flavor, c.name])
    ++ Json.member "orchestrator" ((m.component? "orchestrator").map (·.flavor))

/-- A deployment as the store keeps it, by the names of its steps. -/
def deploymentView (r : Record DeploymentEntry) : Json := Json.object <|
  Json.member "id" r.id ++ Json.member "pipeline_id" r.body.pipeline
    ++ Json.member "build_id" r.body.build ++ Json.member "schedule_id" r.body.schedule
    ++ Json.member "steps" (r.body.steps.map (·.config.name))

def noteView : Note → Json
  | .caught e => errorView e
  | .outputs o => Json.object <|
    Json.member "id" o.invocation
      ++ Json.member "names" (o.artifacts.entries.map fun (k, a) =>
        [k, a.producer, a.output, a.pipeline])
      ++ Json.member "len" o.artifacts.size ++ Json.member "empty" o.artifacts.isEmpty
      ++ Json.member "single" (o.single?.map (·.output))
  | .view v => Json.object <|
    Json.member "pipeline" v.pipeline ++ Json.member "count" v.count
      ++ Json.member "active" v.active

/-- The deployments that a stack was asked to prepare and to start. -/
def requestsView (calls : List StackCall) : Json :=
  let ids (request : StackRequest) : List Uuid :=
    (calls.filter (·.request = request)).map (·.deployment)
  Json.object (Json.member "prepared" (ids .prepare) ++ Json.member "deployed" (ids .deploy))

/-- Each request to a stack, and whether runs were suppressed. A stack that tries to run the
pipeline again while it starts it finds the same. -/
def requestLog (reenters : Bool) (calls : List StackCall) : Json :=
  let suppressed (c : StackCall) : Json := .bool c.suppressed
  Json.object <| Json.member "log" <| calls.flatMap fun c => match c.request with
    | .prepare => [[.str "prepare", toJson c.deployment, suppressed c]]
    | .deploy =>
      [.str "deploy", toJson c.deployment, suppressed c] ::
        if reenters then [[.str "reenter", suppressed c]] else []

end Script

end Pipework
