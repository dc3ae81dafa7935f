import Pipework.Dispatch.Registration
import Pipework.Identity.CacheKey
import Pipework.Pipeline.Compilation

/-!
# The coordinator

The coordinator registers prepared pipelines, builds images for them and runs them on its stack. A
run compiles, registers, schedules, resolves the build, records the deployment and hands it to the
stack, in this order; a failure ends it where it stands.
-/

namespace Pipework

structure Coordinator where
  stack : Stack
  materializers : Materializers := default
  environment : Environment := {}
  /-- The checkout that runs start from, if there is one. -/
  checkout : Option Checkout := none
  /-- The directory of the code. -/
  sourceRoot : String := ""

/-- The records of a run that was handed to the stack. -/
structure RunRecords where
  /-- The registered version, unless the run is unlisted. -/
  pipeline : Option (Record PipelineVersion)
  schedule : Option (Record ScheduleEntry)
  build : Option (Record Build)
  deployment : Record DeploymentEntry

inductive RunOutcome where
  /-- Runs are suppressed, and nothing was done. -/
  | suppressed
  | dispatched (records : RunRecords)

namespace Coordinator

/-- Whether runs are suppressed, by the environment or because one is being dispatched. -/
def isSuppressed (c : Coordinator) (w : World) : Bool :=
  c.environment.preventPipelineExecution || w.guard.suppressed

def compile (c : Coordinator) (p : Pipeline) : Effect (Deployment × Spec) :=
  Effect.lift (p.compile c.materializers c.stack)

/-- Registers a compiled spec of a pipeline. -/
def registerSpec (p : Pipeline) (spec : Spec) : Effect (Record PipelineVersion) := do
  let versionHash ← Effect.lift (p.versionHash spec)
  let user ← Effect.view (·.store.user.id)
  let workspace ← Effect.view (·.store.workspace.id)
  Registration.register {
    name := p.name, versionHash, spec, docstring := p.definition.docstring, user, workspace }

/-- Registers a prepared pipeline as it is, without options. -/
def register (c : Coordinator) (p : Pipeline) : Effect (Record PipelineVersion) := do
  let (_, spec) ← Effect.lift (p.compileWith c.materializers c.stack ∅)
  registerSpec p spec

/-- Whether the images of a deployment download code: if it needs new images and the code is in a
clean checkout. -/
def downloadsCode (c : Coordinator) (d : Deployment) : Bool :=
  d.build.isNone && !(c.stack.requirements d).isEmpty && c.checkout.any (!·.dirty)

/-- Creates a build, unless the stack needs none. -/
def createBuild (c : Coordinator) (d : Deployment) (pipeline : Option Uuid) (downloadsCode : Bool) :
    Effect (Option (Record Build)) := do
  let requirements := c.stack.requirements d
  if requirements.isEmpty then return none
  let user ← Effect.view (·.store.user.id)
  let workspace ← Effect.view (·.store.workspace.id)
  let build ← Effect.ofChange (·.createBuild {
    stack := c.stack.id
    pipeline
    checksum := BuildRequirement.checksum requirements downloadsCode
    requirements
    downloadsCode
    user
    workspace })
  return some build

/-- The build with an id, which has to be of the stack. -/
def explicitBuild (c : Coordinator) (d : Deployment) (id : Uuid) : Effect (Record Build) := fun w =>
  match w.store.getBuild id with
  | .error cause => (.error (.store cause), w)
  | .ok build =>
    if build.body.stack = c.stack.id then (.ok build, w)
    else (.error (.stack (.validation c.stack.name d.configuration.name
      ("build " ++ quoted id.toText ++ " was created for stack "
        ++ quoted build.body.stack.toText))), w)

/-- The newest build of the stack for the requirements of a deployment. -/
def reusableBuild? (c : Coordinator) (d : Deployment) (downloadsCode : Bool) (s : Store) :
    Option (Record Build) :=
  (s.listBuilds {
    stack := c.stack.id
    checksum := BuildRequirement.checksum (c.stack.requirements d) downloadsCode }).first?

/-- The build for a deployment: the one it asks for, or else one to reuse if that is allowed, or
else a new one. -/
def resolveBuild (c : Coordinator) (d : Deployment) (pipeline : Option Uuid) (downloadsCode : Bool)
    (reuse : Bool) : Effect (Option (Record Build)) :=
  match d.build with
  | some id => some <$> c.explicitBuild d id
  | none => do
    if reuse then
      if (c.stack.requirements d).isEmpty then return none
      if let some build ← Effect.view fun w => c.reusableBuild? d downloadsCode w.store then
        return some build
    c.createBuild d pipeline downloadsCode

/-- Registers a prepared pipeline and creates a build for it. -/
def build (c : Coordinator) (p : Pipeline) : Effect (Option (Record Build)) := do
  let (deployment, spec) ← c.compile p
  let registered ← registerSpec p spec
  let build ← c.createBuild deployment (some registered.id) (c.downloadsCode deployment)
  Effect.change (·.emit {
    type := Event.built
    data := Json.object (Json.member "pipeline" p.name ++ Json.member "stack" c.stack.name
      ++ Json.member "build_id" (build.map Record.id)) })
  return build

/-- Whether runs of a pipeline are registered. -/
def registers (c : Coordinator) (p : Pipeline) : Bool :=
  !(p.options.unlisted || c.environment.skipPipelineRegistration)

/-- Registers the pipeline of a run, unless the run is unlisted. -/
def registerRun (c : Coordinator) (p : Pipeline) (spec : Spec) :
    Effect (Option (Record PipelineVersion)) :=
  if c.registers p then some <$> registerSpec p spec else pure none

/-- Creates the schedule that a deployment asks for. Without a name it is named like a run. -/
def createSchedule (c : Coordinator) (d : Deployment) (pipeline : Option Uuid) :
    Effect (Option (Record ScheduleEntry)) :=
  match d.schedule with
  | none => pure none
  | some schedule => do
    let clock ← Effect.view (·.clock)
    let user ← Effect.view (·.store.user.id)
    let workspace ← Effect.view (·.store.workspace.id)
    let record ← Effect.ofChange (·.createSchedule {
      name := schedule.name.getD (RunName.format d.runNameTemplate clock)
      pipeline
      stack := c.stack.id
      active := true
      schedule
      user
      workspace })
    return some record

/-- The cache keys of the steps of a deployment. -/
def cacheKeys (p : Pipeline) (d : Deployment) : Except Error CacheKey.Keys := do
  let engine ← CacheKey.Engine.ofDeployment d p.stepSource?
  engine.allKeys.1

/-- Asks the stack to get ready for a deployment. -/
def prepareStack (c : Coordinator) (d : Record DeploymentEntry) : Effect Unit := fun w =>
  let w := w.logStackCall c.stack .prepare d.id
  match c.stack.refusePrepare? d with
  | some cause => (.error (.stack cause), w)
  | none => (.ok (), w)

/-- Hands a deployment to the stack, while runs are suppressed. -/
def deploy (c : Coordinator) (d : Record DeploymentEntry) : Effect Unit := fun w =>
  let (guard, token) := w.guard.suppress
  let w := { w with guard }.logStackCall c.stack .deploy d.id
  let w := { w with guard := Guard.release token }
  match c.stack.refuseDeploy? d with
  | some cause => (.error (.stack cause), w)
  | none => (.ok (), w)

/-- The report of a run. -/
def runEvent (c : Coordinator) (d : Deployment) (scheduled : Bool) : Event where
  type := Event.ran
  data := Json.object (Json.member "pipeline" d.configuration.name
    ++ Json.member "stack" c.stack.name ++ Json.member "total_steps" d.steps.length
    ++ Json.member "schedule" scheduled
    ++ Json.member "custom_materializer" d.usesCustomMaterializer)

/-- Runs a prepared pipeline. -/
def dispatch (c : Coordinator) (p : Pipeline) : Effect RunRecords := do
  let (deployment, spec) ← c.compile p
  let registered ← c.registerRun p spec
  let pipeline := registered.map Record.id
  let schedule ← c.createSchedule deployment pipeline
  let build ← c.resolveBuild deployment pipeline (c.downloadsCode deployment)
    (!p.options.preventBuildReuse)
  let cacheKeys ← Effect.lift (cacheKeys p deployment)
  let user ← Effect.view (·.store.user.id)
  let workspace ← Effect.view (·.store.workspace.id)
  let record ← Effect.ofChange (·.createDeployment {
    DeploymentEntry.ofDeployment deployment user workspace with
    pipeline
    build := build.map Record.id
    schedule := schedule.map Record.id
    codeReference := c.checkout.bind (·.codeReference? c.sourceRoot)
    cacheKeys })
  c.prepareStack record
  c.deploy record
  Effect.change (·.emit (c.runEvent deployment schedule.isSome))
  return { pipeline := registered, schedule, build, deployment := record }

/-- Runs a prepared pipeline, unless runs are suppressed. -/
def run (c : Coordinator) (p : Pipeline) : Effect RunOutcome := fun w =>
  if c.isSuppressed w then (.ok .suppressed, w)
  else (.dispatched <$> c.dispatch p) w

end Coordinator

end Pipework
