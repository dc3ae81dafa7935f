import Pipework.Event
import Pipework.Graph.Activation
import Pipework.Guard
import Pipework.Stack
import Pipework.Store.Basic

/-!
# The world of a run

Everything that preparing, registering, building and running pipelines can change: the slot of the
active pipeline, the execution guard, the store, the events reported and the requests made to
stacks.
-/

namespace Pipework

structure World where
  /-- Where new identifiers come from. -/
  ids : Supply
  /-- The time at which everything happens. -/
  clock : Time.Instant
  slot : Slot := none
  guard : Guard := {}
  store : Store
  /-- What other writers make of the versions that we are about to create. Each of them comes just
  before one of our requests. -/
  rivals : List (PipelineVersion → PipelineVersion) := []
  /-- The oldest first. -/
  events : List Event := []
  /-- The oldest first. -/
  stackCalls : List StackCall := []

/-- A computation that changes the world and may fail. -/
abbrev Effect (α : Type) := World → Except Error α × World

instance : Monad Effect where
  pure x w := (.ok x, w)
  bind f g w := match f w with
    | (.ok x, w) => g x w
    | (.error e, w) => (.error e, w)

namespace Effect

variable {α : Type}

/-- The outcome of a computation that needs no world. -/
def lift (x : Except Error α) : Effect α := fun w => (x, w)

/-- A change of the world that cannot fail. -/
def change (f : World → World) : Effect Unit := fun w => (.ok (), f w)

/-- What can be seen of the world. -/
def view (f : World → α) : Effect α := fun w => (.ok (f w), w)

end Effect

namespace World

/-- The world of a new workspace. -/
def ofEnvironment (e : Environment) (ids : Supply) (clock : Time.Instant)
    (rivals : List (PipelineVersion → PipelineVersion) := []) : World :=
  let (store, ids) := Store.ofEnvironment e ids
  { ids, clock, store, rivals }

/-- The next identifier. -/
def nextId (w : World) : Uuid × World :=
  let (id, ids) := w.ids.next
  (id, { w with ids })

/-- The stamp of a new record. -/
def nextStamp (w : World) : Stamp × World :=
  let (id, w) := w.nextId
  ({ id, created := w.clock }, w)

def emit (w : World) (event : Event) : World := { w with events := w.events ++ [event] }

def logStackCall (w : World) (stack : Stack) (request : StackRequest) (deployment : Uuid) : World :=
  { w with stackCalls := w.stackCalls ++
    [{ stack := stack.instanceNumber, request, deployment, suppressed := w.guard.suppressed }] }

def listPipelines (w : World) (f : PipelineFilter) : Page (Record PipelineVersion) × World :=
  let (page, store) := w.store.listPipelines f
  (page, { w with store })

/-- Adds a pipeline version without a rival. -/
def addPipeline (w : World) (v : PipelineVersion) :
    Except StoreError (Record PipelineVersion) × World :=
  let (stamp, w) := w.nextStamp
  let (result, store) := w.store.createPipeline stamp v
  (result, { w with store })

/-- Adds a pipeline version, after the next rival if there is one; a rival that fails is the
answer. -/
def createPipeline (w : World) (v : PipelineVersion) :
    Except StoreError (Record PipelineVersion) × World :=
  match w.rivals with
  | [] => w.addPipeline v
  | rival :: rivals => match { w with rivals }.addPipeline (rival v) with
    | (.ok _, w) => w.addPipeline v
    | (.error e, w) => (.error e, w)

def createSchedule (w : World) (e : ScheduleEntry) : Record ScheduleEntry × World :=
  let (stamp, w) := w.nextStamp
  let (record, store) := w.store.createSchedule stamp e
  (record, { w with store })

def createBuild (w : World) (b : Build) : Record Build × World :=
  let (stamp, w) := w.nextStamp
  let (record, store) := w.store.createBuild stamp b
  (record, { w with store })

def createDeployment (w : World) (d : DeploymentEntry) : Record DeploymentEntry × World :=
  let (stamp, w) := w.nextStamp
  let (record, store) := w.store.createDeployment stamp d
  (record, { w with store })

/-- The stack with an id, or else the default stack. -/
def activeStack (w : World) (id : Option Uuid) : StackModel × World :=
  let (stack, store, ids) := w.store.activeStack id w.ids
  (stack, { w with store, ids })

end World

/-- A change of the world that gives a value and cannot fail. -/
def Effect.ofChange {α : Type} (f : World → α × World) : Effect α := fun w =>
  let (x, w) := f w
  (.ok x, w)

end Pipework
