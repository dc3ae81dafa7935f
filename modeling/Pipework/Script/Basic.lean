import Pipework.Program.Workflow

/-!
# Scripts

A script is an entrypoint written as data: a list of actions and an expression for the value.
Actions name steps and pipelines by the variables of a session, and keep outputs and values in
variables that all scripts of the session share. The meaning of a script is a program
(`Script.program`).
-/

namespace Pipework.Script

/-- An expression for a value. -/
inductive Expr where
  | literal (value : Json)
  /-- An argument of the entrypoint. -/
  | argument (name : String)
  /-- A value that was kept before. -/
  | kept (name : String)
  deriving DecidableEq

/-- An input taken from outputs that were kept before. -/
structure InputRef where
  kept : String
  /-- The output to take, none for the only one. -/
  output : Option String := none
  deriving DecidableEq

/-- A call of a step. -/
structure StepCall where
  step : String
  inputs : Dict InputRef := .empty
  externals : Dict ExternalArtifact := .empty
  parameters : Dict Expr := .empty
  after : List String := []
  id : Option String := none
  allowSuffix : Bool := true
  configuration : StepLayer := ∅
  /-- Where to keep the outputs. -/
  keepAs : Option String := none

inductive Command where
  | callStep (call : StepCall)
  /-- Runs the entrypoint of a pipeline for its value. -/
  | nested (pipeline : String) (arguments : Dict Expr) (keepAs : Option String)
  /-- Calls a copy of a pipeline. -/
  | callPipeline (pipeline : String) (arguments : Dict Expr) (keepAs : Option String)
  /-- Prepares a copy of a pipeline. -/
  | prepare (pipeline : String) (arguments : Dict Expr)
  /-- Notes what outputs there are. -/
  | noteOutputs (kept : String)
  /-- Notes the state of the preparation. -/
  | noteView
  | fail (message : String)

structure Action where
  command : Command
  /-- Whether an error is noted rather than ending the script. -/
  caught : Bool := false

/-- Something a script tells about its run. -/
inductive Note where
  | caught (cause : Error)
  | outputs (outputs : StepOutputs)
  | view (view : PassView)

/-- What scripts share. -/
structure Memory where
  outputs : Dict StepOutputs := .empty
  values : Dict Json := .empty
  /-- The oldest first. -/
  notes : List Note := []

end Script

structure Script where
  actions : List Script.Action
  returns : Script.Expr := .literal .null

namespace Script

/-- What the variables of steps and pipelines stand for. -/
structure Bindings where
  step? : String → Option (Except Error Step)
  workflow? : String → Option (Workflow Memory)
  /-- What runs pipelines that a script calls. -/
  coordinator : Coordinator

/-- A failure of the script itself. -/
def scriptError (message : String) : Error := .serialization message

namespace Expr

def value (arguments : Dict Json) (m : Memory) : Expr → Json
  | .literal v => v
  | .argument name => (arguments.get? name).getD .null
  | .kept name => (m.values.get? name).getD .null

end Expr

namespace Memory

def keepOutputs (m : Memory) (name : Option String) (o : StepOutputs) : Memory :=
  match name with
  | some name => { m with outputs := m.outputs.insert name o }
  | none => m

def keepValue (m : Memory) (name : Option String) (v : Json) : Memory :=
  match name with
  | some name => { m with values := m.values.insert name v }
  | none => m

def note (m : Memory) (n : Note) : Memory := { m with notes := m.notes ++ [n] }

/-- The outputs under a name. -/
def getOutputs (m : Memory) (name : String) : Except Error StepOutputs :=
  match m.outputs.get? name with
  | some o => .ok o
  | none => .error (scriptError "unknown output variable")

/-- The artifact that a reference stands for, none if it asks for the only output and there is no
such. -/
def artifact? (m : Memory) (r : InputRef) : Except Error (Option Artifact) := do
  let o ← m.getOutputs r.kept
  match r.output with
  | some output => some <$> o.get output
  | none => return o.single?

end Memory

/-- The request that a call makes. -/
def StepCall.request (c : StepCall) (step : Step) (arguments : Dict Json) (m : Memory) :
    Except Error InvocationRequest := do
  let inputs ← c.inputs.traverse fun _ r => m.artifact? r
  return {
    step
    inputs := .ofList (inputs.entries.filterMap fun (name, a) => a.map (name, ·))
    externals := c.externals
    parameters := c.parameters.map (·.value arguments m)
    predecessors := .ofList c.after
    customId := c.id
    allowSuffix := c.allowSuffix
    configuration := c.configuration }

/-- What an outcome of a call leaves under a name. -/
def outcomeValue : CallOutcome → Json
  | .nested value => value
  | .ran .suppressed => .str "suppressed"
  | .ran (.dispatched _) => .str "ran"

/-- A program that goes on with a change of the memory or with an error. -/
def keep (m : Memory) (change : Except Error Memory)
    (next : Except Error Unit → Program Memory) : Program Memory :=
  match change with
  | .ok changed => .write changed (next (.ok ()))
  | .error e => .write m (next (.error e))

/-- Finds the pipeline under a name. -/
def Bindings.workflow (b : Bindings) (name : String) : Except Error (Workflow Memory) :=
  match b.workflow? name with
  | some w => .ok w
  | none => .error (scriptError "unknown pipeline variable")

/-- Finds the step under a name, which may be one that could not be built. -/
def Bindings.step (b : Bindings) (name : String) : Except Error Step :=
  match b.step? name with
  | some step => step
  | none => .error (scriptError "unknown step variable")

/-- The program of a command, given what comes after it. -/
def Command.program (b : Bindings) (arguments : Dict Json) (command : Command)
    (next : Except Error Unit → Program Memory) : Program Memory :=
  .read fun m => match command with
  | .callStep c =>
    match (b.step c.step).bind fun step => c.request step arguments m with
    | .error e => next (.error e)
    | .ok request => .invoke request fun result =>
      .read fun m => keep m (result.map (m.keepOutputs c.keepAs)) next
  | .nested name args keepAs =>
    match b.workflow name with
    | .error e => next (.error e)
    | .ok w => .nested w.pipeline w.entry (args.map (·.value arguments m)) fun result =>
      .read fun m => keep m (result.map (m.keepValue keepAs)) next
  | .callPipeline name args keepAs =>
    match b.workflow name with
    | .error e => next (.error e)
    | .ok w => .call w.pipeline w.entry (args.map (·.value arguments m)) b.coordinator fun result =>
      .read fun m => keep m (result.map fun o => m.keepValue keepAs (outcomeValue o)) next
  | .prepare name args =>
    match b.workflow name with
    | .error e => next (.error e)
    | .ok w => .prepare w.pipeline w.entry (args.map (·.value arguments m)) next
  | .noteOutputs name => keep m ((m.getOutputs name).map fun o => m.note (.outputs o)) next
  | .noteView => .inspect fun v => keep m (.ok (m.note (.view v))) next
  | .fail message => next (.error (scriptError message))

/-- The program of a list of actions, which ends with the first error that is not caught. -/
def actionsProgram (b : Bindings) (arguments : Dict Json) (finish : Program Memory) :
    List Action → Program Memory
  | [] => finish
  | action :: rest => action.command.program b arguments fun
    | .ok () => actionsProgram b arguments finish rest
    | .error e =>
      if action.caught then
        .read fun m => .write (m.note (.caught e)) (actionsProgram b arguments finish rest)
      else .done (.error e)

/-- The entrypoint that a script describes. -/
def program (b : Bindings) (s : Script) (arguments : Dict Json) : Program Memory :=
  actionsProgram b arguments (.read fun m => .done (.ok (s.returns.value arguments m))) s.actions

end Script

/-- An entrypoint of a session: a script or a program. -/
inductive Entrypoint where
  | script (script : Script)
  | program (entry : Dict Json → Program Script.Memory)

/-- A pipeline under a name of a session. -/
structure NamedPipeline where
  pipeline : Pipeline
  entrypoint : Entrypoint

namespace Script

/-- The variables of a session. -/
structure Scope where
  steps : Dict (Except Error Step) := .empty
  pipelines : Dict NamedPipeline := .empty
  /-- What runs pipelines that a script calls. -/
  coordinator : Coordinator

/-- How deep scripts may call each other. -/
def depthBound : Nat := 200

/-- The entrypoint as a program. A script that calls others finds them in the scope; the number
bounds how deep such calls go. -/
def entry (scope : Scope) : Nat → Entrypoint → Dict Json → Program Memory
  | _, .program entry, arguments => entry arguments
  | 0, .script _, _ => .done (.error (scriptError "scripts call each other without end"))
  | n + 1, .script s, arguments => s.program {
      step? := scope.steps.get?
      workflow? := fun name => (scope.pipelines.get? name).map fun p =>
        { pipeline := p.pipeline, entry := entry scope n p.entrypoint }
      coordinator := scope.coordinator } arguments

/-- The workflow of a pipeline of a session. -/
def workflow (scope : Scope) (p : NamedPipeline) : Workflow Memory where
  pipeline := p.pipeline
  entry := entry scope depthBound p.entrypoint

end Script

end Pipework
