import Pipework.Config.PipelineLayer
import Pipework.Config.RunConfiguration
import Pipework.Deployment.Spec

/-!
# Deployments

A deployment says everything that is needed to run a pipeline once on a stack: every step in the
order of invocation with its fully resolved configuration.
-/

namespace Pipework

/-- One step of a deployment: its place in the pipeline and its configuration. -/
structure DeploymentStep where
  spec : StepSpec
  config : StepConfiguration
  deriving DecidableEq

namespace DeploymentStep

instance : ToJson DeploymentStep where
  toJson s := Json.object (Json.member "spec" s.spec ++ Json.member "config" s.config)

def read? {δ : Type} [Document δ] : Document.Reader δ DeploymentStep :=
  Document.record? do
    let spec ← Document.Fields.required "spec" StepSpec.read?
    let config ← Document.Fields.required "config" StepConfiguration.read?
    pure { spec, config }

end DeploymentStep

structure Deployment where
  runNameTemplate : String
  configuration : PipelineConfiguration
  steps : List DeploymentStep
  /-- The arguments of the entrypoint. -/
  parameters : Dict Json
  /-- The stack to run on. -/
  stack : Uuid
  schedule : Option Schedule
  /-- The build that the run configuration asks for. -/
  build : Option Uuid
  /-- The version of the library that compiled the deployment. -/
  clientVersion : String
  deriving DecidableEq

namespace Deployment

/-- The version of this library. -/
def libraryVersion : String := "0.1.0"

/-- The step with an id. -/
def step? (d : Deployment) (id : String) : Option DeploymentStep :=
  d.steps.find? (·.config.name = id)

/-- Whether some output has a materializer that is not built in. -/
def usesCustomMaterializer (d : Deployment) : Bool :=
  d.steps.any fun s => s.config.outputs.values.any fun o => !o.materializer.internal

instance : ToJson Deployment where
  toJson d := Json.object <|
    Json.member "run_name_template" d.runNameTemplate
      ++ Json.member "pipeline_configuration" d.configuration ++ Json.member "steps" d.steps
      ++ Json.member "parameters" d.parameters ++ Json.member "stack_id" d.stack
      ++ Json.member "schedule" d.schedule ++ Json.member "build" d.build
      ++ Json.member "client_version" d.clientVersion

def read? {δ : Type} [Document δ] : Document.Reader δ Deployment :=
  Document.record? do
    let runNameTemplate ← Document.Fields.required "run_name_template" Document.text?
    let configuration ←
      Document.Fields.required "pipeline_configuration" PipelineConfiguration.read?
    let steps ← Document.Fields.required "steps" (Document.list? DeploymentStep.read?)
    let parameters ← Document.Fields.required "parameters" Document.values?
    let stack ← Document.Fields.required "stack_id" Document.uuid?
    let schedule ← Document.Fields.nullable "schedule" Schedule.read?
    let build ← Document.Fields.nullable "build" Document.uuid?
    let clientVersion ← Document.Fields.required "client_version" Document.text?
    pure { runNameTemplate, configuration, steps, parameters, stack, schedule, build,
           clientVersion }

end Deployment

end Pipework
