import Pipework.Code.Checkout
import Pipework.Deployment.Basic
import Pipework.Deployment.BuildRequirement

/-!
# Records

What the store keeps: pipeline versions, schedules, builds and deployments. A record adds an id
and the time of its creation to what was asked for, and is written as one object with the members
of both.
-/

namespace Pipework

/-- What records can hold. -/
class RecordBody (α : Type) where
  members : α → List (String × Json)
  fields {δ : Type} [Document δ] : Document.FieldReader δ α

/-- The id and time of a new record. -/
structure Stamp where
  id : Uuid
  created : Time.Instant
  deriving DecidableEq

structure Record (α : Type) where
  stamp : Stamp
  body : α
  deriving DecidableEq

namespace Record

variable {α : Type} [RecordBody α]

def id {β : Type} (r : Record β) : Uuid := r.stamp.id

instance : ToJson (Record α) where
  toJson r := Json.object <|
    Json.member "id" r.stamp.id ++ Json.member "created" r.stamp.created
      ++ RecordBody.members r.body

def read? {δ : Type} [Document δ] : Document.Reader δ (Record α) :=
  Document.namedRecord? do
    let id ← Document.Fields.required "id" Document.uuid?
    let created ← Document.Fields.required "created" Document.instant?
    let body ← RecordBody.fields
    pure { stamp := { id, created }, body }

end Record

/-- A registered version of a pipeline. -/
structure PipelineVersion where
  name : String
  /-- A number, or `UNVERSIONED`. -/
  version : String
  versionHash : String
  spec : Spec
  docstring : Option String := none
  user : Uuid
  workspace : Uuid
  deriving DecidableEq

namespace PipelineVersion

/-- The version of pipelines that were registered without a number. -/
def unversioned : String := "UNVERSIONED"

instance : RecordBody PipelineVersion where
  members v :=
    Json.member "name" v.name ++ Json.member "version" v.version
      ++ Json.member "version_hash" v.versionHash ++ Json.member "spec" v.spec
      ++ Json.member? "docstring" v.docstring ++ Json.member "user" v.user
      ++ Json.member "workspace" v.workspace
  fields := do
    let name ← Document.Fields.required "name" Document.text?
    let version ← Document.Fields.required "version" Document.text?
    let versionHash ← Document.Fields.required "version_hash" Document.text?
    let spec ← Document.Fields.required "spec" Spec.read?
    let docstring ← Document.Fields.optional "docstring" Document.text?
    let user ← Document.Fields.required "user" Document.uuid?
    let workspace ← Document.Fields.required "workspace" Document.uuid?
    pure { name, version, versionHash, spec, docstring, user, workspace }

end PipelineVersion

/-- A schedule of a pipeline on a stack. -/
structure ScheduleEntry where
  name : String
  /-- The registered version, if there is one. -/
  pipeline : Option Uuid := none
  stack : Uuid
  active : Bool
  schedule : Schedule
  user : Uuid
  workspace : Uuid
  deriving DecidableEq

namespace ScheduleEntry

instance : RecordBody ScheduleEntry where
  members s :=
    Json.member "name" s.name ++ Json.member? "pipeline_id" s.pipeline
      ++ Json.member "stack_id" s.stack ++ Json.member "active" s.active
      ++ Json.member "schedule" s.schedule ++ Json.member "user" s.user
      ++ Json.member "workspace" s.workspace
  fields := do
    let name ← Document.Fields.required "name" Document.text?
    let pipeline ← Document.Fields.optional "pipeline_id" Document.uuid?
    let stack ← Document.Fields.required "stack_id" Document.uuid?
    let active ← Document.Fields.required "active" Document.bool?
    let schedule ← Document.Fields.required "schedule" Schedule.read?
    let user ← Document.Fields.required "user" Document.uuid?
    let workspace ← Document.Fields.required "workspace" Document.uuid?
    pure { name, pipeline, stack, active, schedule, user, workspace }

end ScheduleEntry

/-- The images that were built for a stack. -/
structure Build where
  stack : Uuid
  /-- The registered version, if there is one. -/
  pipeline : Option Uuid := none
  /-- The checksum of the requirements. -/
  checksum : String
  requirements : List BuildRequirement
  /-- Whether the images download code when they run. -/
  downloadsCode : Bool
  user : Uuid
  workspace : Uuid
  deriving DecidableEq

namespace Build

instance : RecordBody Build where
  members b :=
    Json.member "stack_id" b.stack ++ Json.member? "pipeline_id" b.pipeline
      ++ Json.member "checksum" b.checksum ++ Json.member "configurations" b.requirements
      ++ Json.member "downloads_code" b.downloadsCode ++ Json.member "user" b.user
      ++ Json.member "workspace" b.workspace
  fields := do
    let stack ← Document.Fields.required "stack_id" Document.uuid?
    let pipeline ← Document.Fields.optional "pipeline_id" Document.uuid?
    let checksum ← Document.Fields.required "checksum" Document.text?
    let requirements ←
      Document.Fields.required "configurations" (Document.list? BuildRequirement.read?)
    let downloadsCode ← Document.Fields.required "downloads_code" Document.bool?
    let user ← Document.Fields.required "user" Document.uuid?
    let workspace ← Document.Fields.required "workspace" Document.uuid?
    pure { stack, pipeline, checksum, requirements, downloadsCode, user, workspace }

end Build

/-- A deployment as it was handed to a stack. -/
structure DeploymentEntry where
  runNameTemplate : String
  configuration : PipelineConfiguration
  steps : List DeploymentStep
  stack : Uuid
  /-- The registered version, unless the run is unlisted. -/
  pipeline : Option Uuid := none
  build : Option Uuid := none
  schedule : Option Uuid := none
  codeReference : Option CodeReference := none
  /-- The cache key of every step by the id of its invocation. -/
  cacheKeys : Dict String := .empty
  clientVersion : String
  user : Uuid
  workspace : Uuid
  deriving DecidableEq

namespace DeploymentEntry

/-- A deployment without any of the records that it may refer to. -/
def ofDeployment (d : Deployment) (user workspace : Uuid) : DeploymentEntry where
  runNameTemplate := d.runNameTemplate
  configuration := d.configuration
  steps := d.steps
  stack := d.stack
  clientVersion := d.clientVersion
  user
  workspace

instance : RecordBody DeploymentEntry where
  members d :=
    Json.member "run_name_template" d.runNameTemplate
      ++ Json.member "pipeline_configuration" d.configuration ++ Json.member "steps" d.steps
      ++ Json.member "stack_id" d.stack ++ Json.member? "pipeline_id" d.pipeline
      ++ Json.member? "build_id" d.build ++ Json.member? "schedule_id" d.schedule
      ++ Json.member? "code_reference" d.codeReference
      ++ Json.member "step_cache_keys" d.cacheKeys ++ Json.member "client_version" d.clientVersion
      ++ Json.member "user" d.user ++ Json.member "workspace" d.workspace
  fields := do
    let runNameTemplate ← Document.Fields.required "run_name_template" Document.text?
    let configuration ←
      Document.Fields.required "pipeline_configuration" PipelineConfiguration.read?
    let steps ← Document.Fields.required "steps" (Document.list? DeploymentStep.read?)
    let stack ← Document.Fields.required "stack_id" Document.uuid?
    let pipeline ← Document.Fields.optional "pipeline_id" Document.uuid?
    let build ← Document.Fields.optional "build_id" Document.uuid?
    let schedule ← Document.Fields.optional "schedule_id" Document.uuid?
    let codeReference ← Document.Fields.optional "code_reference" CodeReference.read?
    let cacheKeys ← Document.Fields.required "step_cache_keys" (Document.dict? Document.text?)
    let clientVersion ← Document.Fields.required "client_version" Document.text?
    let user ← Document.Fields.required "user" Document.uuid?
    let workspace ← Document.Fields.required "workspace" Document.uuid?
    pure { runNameTemplate, configuration, steps, stack, pipeline, build, schedule, codeReference,
           cacheKeys, clientVersion, user, workspace }

end DeploymentEntry

end Pipework
