import Pipework.Digest.Sha256
import Pipework.Environment
import Pipework.Error
import Pipework.Store.Member
import Pipework.Store.Record
import Pipework.Supply

/-!
# The store

The store keeps the records of one workspace. Records are only ever added; listings give the newest
first. Two pipeline versions never share name and number. The default stack comes back when it is
asked for after it was deleted.
-/

namespace Pipework

/-- How often each kind of request was made. -/
structure CallCounts where
  listPipelines : Nat := 0
  createPipeline : Nat := 0
  createSchedule : Nat := 0
  createBuild : Nat := 0
  createDeployment : Nat := 0
  deriving DecidableEq, Repr, Inhabited

namespace CallCounts

instance : ToJson CallCounts where
  toJson c := Json.object <|
    Json.member "list_pipelines" c.listPipelines ++ Json.member "create_pipeline" c.createPipeline
      ++ Json.member "create_schedule" c.createSchedule ++ Json.member "create_build" c.createBuild
      ++ Json.member "create_deployment" c.createDeployment

end CallCounts

/-- The records of one workspace, in the order of their creation. -/
structure Store where
  user : User
  workspace : Workspace
  pipelines : List (Record PipelineVersion) := []
  schedules : List (Record ScheduleEntry) := []
  builds : List (Record Build) := []
  deployments : List (Record DeploymentEntry) := []
  /-- Stacks with different ids. -/
  stackModels : List StackModel := []
  defaultStack : Option Uuid := none
  calls : CallCounts := {}

/-- The start of a listing. -/
structure Page (α : Type) where
  items : List α
  /-- How many records there are in the whole listing. -/
  total : Nat

namespace Page

/-- The listing of records, cut to a size if one is given. -/
def ofList {α : Type} (records : List α) (size : Option Nat := none) : Page α where
  items := match size with
    | some n => records.take n
    | none => records
  total := records.length

def first? {α : Type} (p : Page α) : Option α := p.items.head?

end Page

/-- Which pipeline versions to list. -/
structure PipelineFilter where
  name : Option String := none
  versionHash : Option String := none
  size : Option Nat := none

namespace PipelineFilter

def accepts (f : PipelineFilter) (v : PipelineVersion) : Bool :=
  f.name.all (v.name == ·) && f.versionHash.all (v.versionHash == ·)

end PipelineFilter

/-- Which builds to list. -/
structure BuildFilter where
  stack : Option Uuid := none
  checksum : Option String := none

namespace BuildFilter

def accepts (f : BuildFilter) (b : Build) : Bool :=
  f.stack.all (b.stack == ·) && f.checksum.all (b.checksum == ·)

end BuildFilter

namespace Store

def listPipelines (s : Store) (f : PipelineFilter) : Page (Record PipelineVersion) × Store :=
  (.ofList (s.pipelines.reverse.filter fun r => f.accepts r.body) f.size,
    { s with calls := { s.calls with listPipelines := s.calls.listPipelines + 1 } })

/-- Whether there is a version of that name and number. -/
def hasVersion (s : Store) (name version : String) : Bool :=
  s.pipelines.any fun r => r.body.name == name && r.body.version == version

/-- Adds a pipeline version, unless there is one of the same name and number. -/
def createPipeline (s : Store) (stamp : Stamp) (v : PipelineVersion) :
    Except StoreError (Record PipelineVersion) × Store :=
  let s := { s with calls := { s.calls with createPipeline := s.calls.createPipeline + 1 } }
  if s.hasVersion v.name v.version then
    (.error (.conflict "Pipeline" (v.name ++ ":" ++ v.version)), s)
  else (.ok { stamp, body := v }, { s with pipelines := s.pipelines ++ [{ stamp, body := v }] })

def createSchedule (s : Store) (stamp : Stamp) (e : ScheduleEntry) : Record ScheduleEntry × Store :=
  ({ stamp, body := e }, { s with
    schedules := s.schedules ++ [{ stamp, body := e }]
    calls := { s.calls with createSchedule := s.calls.createSchedule + 1 } })

def listBuilds (s : Store) (f : BuildFilter) : Page (Record Build) :=
  .ofList (s.builds.reverse.filter fun r => f.accepts r.body)

def getBuild (s : Store) (id : Uuid) : Except StoreError (Record Build) :=
  match s.builds.find? (·.id = id) with
  | some build => .ok build
  | none => .error (.notFound "Build" id.toText)

def createBuild (s : Store) (stamp : Stamp) (b : Build) : Record Build × Store :=
  ({ stamp, body := b }, { s with
    builds := s.builds ++ [{ stamp, body := b }]
    calls := { s.calls with createBuild := s.calls.createBuild + 1 } })

def createDeployment (s : Store) (stamp : Stamp) (d : DeploymentEntry) :
    Record DeploymentEntry × Store :=
  ({ stamp, body := d }, { s with
    deployments := s.deployments ++ [{ stamp, body := d }]
    calls := { s.calls with createDeployment := s.calls.createDeployment + 1 } })

def stack? (s : Store) (id : Uuid) : Option StackModel := s.stackModels.find? (·.id = id)

def getStack (s : Store) (id : Uuid) : Except StoreError StackModel :=
  match s.stack? id with
  | some stack => .ok stack
  | none => .error (.notFound "Stack" id.toText)

/-- Adds a stack in place of one with the same id. -/
def registerStack (s : Store) (m : StackModel) : Store :=
  { s with stackModels := s.stackModels.filter (·.id ≠ m.id) ++ [m] }

/-- Removes a stack and gives what was removed. -/
def deleteStack (s : Store) (id : Uuid) : Option StackModel × Store :=
  (s.stack? id, { s with stackModels := s.stackModels.filter (·.id ≠ id) })

def defaultName : String := "default"

/-- A new default stack with a local component of each type that every stack has. -/
def newDefaultStack (workspace : Uuid) (ids : Supply) : StackModel × Supply :=
  let (orchestrator, ids) := ids.next
  let (artifactStore, ids) := ids.next
  let (stack, ids) := ids.next
  let component (id : Uuid) (componentType : String) :=
    (componentType, { id, name := defaultName, componentType, flavor := "local" : Component })
  ({ id := stack
     name := defaultName
     workspace
     components := .ofList [component orchestrator "orchestrator",
       component artifactStore "artifact_store"] }, ids)

/-- The default stack, if it is there. -/
def presentDefault? (s : Store) : Option StackModel := s.defaultStack.bind s.stack?

/-- The default stack, made anew if it is not there. -/
def ensureDefaultStack (s : Store) (ids : Supply) : StackModel × Store × Supply :=
  match s.presentDefault? with
  | some stack => (stack, s, ids)
  | none =>
    let (stack, ids) := newDefaultStack s.workspace.id ids
    (stack, { s.registerStack stack with defaultStack := stack.id }, ids)

/-- The stack with an id, or the default stack. -/
def activeStack (s : Store) (id : Option Uuid) (ids : Supply) : StackModel × Store × Supply :=
  match id.bind s.stack? with
  | some stack => (stack, s, ids)
  | none => s.ensureDefaultStack ids

/-- The store of a new workspace. -/
def ofEnvironment (e : Environment) (ids : Supply) : Store × Supply :=
  let (user, ids) := ids.next
  let (workspace, ids) := ids.next
  let store : Store := {
    user := { id := user, name := e.defaultUserName
              passwordHash := e.defaultUserPassword.map Digest.sha256Hex }
    workspace := { id := workspace, name := e.defaultWorkspaceName } }
  let (_, store, ids) := store.ensureDefaultStack ids
  (store, ids)

end Store

end Pipework
