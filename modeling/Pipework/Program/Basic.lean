import Pipework.Dispatch.Coordinator

/-!
# Entrypoints

The entrypoint of a pipeline is a program: it calls steps, may call and prepare other pipelines,
and ends with a value or an error. All entrypoints of a session share a memory. A program is given
as the tree of what it does next, so it can be anything that a function of its arguments can do,
and `Program.run` follows the tree.
-/

namespace Pipework

/-- What the entrypoint can see of its own preparation. -/
structure PassView where
  pipeline : String
  /-- How many invocations there are so far. -/
  count : Nat
  /-- The active pipeline, if there is one. -/
  active : Option String
  deriving DecidableEq

/-- How a call of a pipeline ended. -/
inductive CallOutcome where
  /-- Another pipeline was active, so only the entrypoint ran and gave this value. -/
  | nested (value : Json)
  | ran (outcome : RunOutcome)

/-- The rest of an entrypoint over a shared memory. A pipeline that is called comes with its own
entrypoint. -/
inductive Program (σ : Type) where
  | done (result : Except Error Json)
  | read (next : σ → Program σ)
  | write (memory : σ) (next : Program σ)
  | inspect (next : PassView → Program σ)
  /-- Calls a step. -/
  | invoke (request : InvocationRequest) (next : Except Error StepOutputs → Program σ)
  /-- Runs the entrypoint of another pipeline for its value. -/
  | nested (callee : Pipeline) (entry : Dict Json → Program σ) (arguments : Dict Json)
      (next : Except Error Json → Program σ)
  /-- Prepares a copy of another pipeline. -/
  | prepare (callee : Pipeline) (entry : Dict Json → Program σ) (arguments : Dict Json)
      (next : Except Error Unit → Program σ)
  /-- Calls a copy of another pipeline. -/
  | call (callee : Pipeline) (entry : Dict Json → Program σ) (arguments : Dict Json)
      (coordinator : Coordinator) (next : Except Error CallOutcome → Program σ)

/-- What outlives a single preparation. -/
structure Session (σ : Type) where
  world : World
  /-- The memory that all entrypoints share. -/
  memory : σ

/-- What an entrypoint works on. -/
structure Scene (σ : Type) where
  session : Session σ
  graph : Graph

/-- A way to run an entrypoint with its arguments. -/
abbrev Runner (σ : Type) := Dict Json → Scene σ → Except Error Json × Scene σ

namespace Session

variable {σ : Type}

/-- The session with another world. -/
def withWorld (s : Session σ) (world : World) : Session σ := { s with world }

/-- The next identifier. -/
def nextId (s : Session σ) : Uuid × Session σ :=
  let (id, world) := s.world.nextId
  (id, s.withWorld world)

def withSlot (s : Session σ) (slot : Slot) : Session σ := s.withWorld { s.world with slot }

end Session

namespace Scene

variable {σ : Type}

def view (s : Scene σ) : PassView where
  pipeline := s.graph.pipeline
  count := s.graph.size
  active := s.session.world.slot.map (·.pipeline)

end Scene

namespace Pipeline

variable {σ : Type}

/-- Builds the graph of a pipeline anew. The graph of before is dropped, and there is a new one
only if the arguments fit, no other pipeline is active, and the entrypoint succeeds. -/
def prepareBy (run : Runner σ) (p : Pipeline) (arguments : Dict Json) (s : Session σ) :
    Except Error Unit × Pipeline × Session σ :=
  if (Text.trim p.name).isEmpty then (.error (.configuration (.emptyName "Pipeline")), p, s)
  else
    let p := { p with graph := none }
    match p.definition.bind arguments with
    | .error e => (.error e, p, s)
    | .ok bound =>
      let (pass, s) := s.nextId
      match s.world.slot.enter p.name pass with
      | .error cause => (.error (.graph cause), p, s)
      | .ok slot =>
        match run bound { session := s.withSlot slot, graph := { pipeline := p.name, pass } } with
        | (result, scene) =>
          let s := scene.session.withSlot (scene.session.world.slot.leave pass)
          match result with
          | .error e => (.error e, p, s)
          | .ok _ => (.ok (), { p with graph := some scene.graph, arguments := bound }, s)

/-- Runs the entrypoint of a pipeline on a graph of its own, which is dropped. -/
def nestedBy (run : Runner σ) (p : Pipeline) (arguments : Dict Json) (s : Session σ) :
    Except Error Json × Session σ :=
  match p.definition.bind arguments with
  | .error e => (.error e, s)
  | .ok bound =>
    let (pass, s) := s.nextId
    let (result, scene) :=
      run bound { session := s, graph := { pipeline := p.name, pass, detached := true } }
    (result, scene.session)

/-- Calls a pipeline: while another one is active for its value, else to prepare and run it. -/
def callBy (run : Runner σ) (p : Pipeline) (arguments : Dict Json) (c : Coordinator)
    (s : Session σ) : Except Error CallOutcome × Pipeline × Session σ :=
  if s.world.slot.isSome then
    match nestedBy run p arguments s with
    | (result, s) => (result.map .nested, p, s)
  else match prepareBy run p arguments s with
    | (.error e, p, s) => (.error e, p, s)
    | (.ok (), p, s) =>
      match c.run p s.world with
      | (result, world) => (result.map .ran, p, s.withWorld world)

end Pipeline

namespace Program

variable {σ : Type}

/-- Runs the rest of an entrypoint. -/
def run : Program σ → Scene σ → Except Error Json × Scene σ
  | .done result, s => (result, s)
  | .read next, s => (next s.session.memory).run s
  | .write memory next, s => next.run { s with session := { s.session with memory } }
  | .inspect next, s => (next s.view).run s
  | .invoke request next, s =>
    match s.graph.call s.session.world.slot request with
    | .ok (graph, outputs) => (next (.ok outputs)).run { s with graph }
    | .error e => (next (.error e)).run s
  | .nested callee entry arguments next, s =>
    match callee.nestedBy (fun bound s => (entry bound).run s) arguments s.session with
    | (result, session) => (next result).run { s with session }
  | .prepare callee entry arguments next, s =>
    match callee.prepareBy (fun bound s => (entry bound).run s) arguments s.session with
    | (result, _, session) => (next result).run { s with session }
  | .call callee entry arguments coordinator next, s =>
    match callee.callBy (fun bound s => (entry bound).run s) arguments coordinator s.session with
    | (result, _, session) => (next result).run { s with session }

end Program

end Pipework
