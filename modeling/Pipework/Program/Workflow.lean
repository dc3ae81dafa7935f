import Pipework.Program.Basic

/-!
# Workflows

A workflow is a pipeline with its entrypoint. It can be prepared, called, compiled, registered,
built and run. An action changes the workflow and the session also where it fails.
-/

namespace Pipework

structure Workflow (σ : Type) where
  pipeline : Pipeline
  entry : Dict Json → Program σ

namespace Workflow

variable {σ α : Type}

/-- Something done with a workflow that may fail. -/
abbrev Action (σ α : Type) := Pipeline → Session σ → Except Error α × Pipeline × Session σ

instance : Monad (Action σ) where
  pure x p s := (.ok x, p, s)
  bind f g p s := match f p s with
    | (.ok x, p, s) => g x p s
    | (.error e, p, s) => (.error e, p, s)

/-- A change of the world that depends on the pipeline. -/
def effect (f : Pipeline → Effect α) : Action σ α := fun p s =>
  let (result, world) := f p s.world
  (result, p, s.withWorld world)

/-- The way to run the entrypoint of the workflow. -/
def runner (w : Workflow σ) : Runner σ := fun bound scene => (w.entry bound).run scene

def prepare (w : Workflow σ) (arguments : Dict Json) : Action σ Unit := fun p s =>
  p.prepareBy w.runner arguments s

/-- Prepares the pipeline, unless it is prepared or cannot be prepared without arguments. -/
def prepareIfPossible (w : Workflow σ) : Action σ Unit := fun p s =>
  if p.isPrepared then (.ok (), p, s)
  else if p.definition.requiresParameters then (.error (.configuration (.notPrepared p.name)), p, s)
  else w.prepare .empty p s

/-- The value of the entrypoint, whose invocations are dropped. -/
def nested (w : Workflow σ) (arguments : Dict Json) : Action σ Json := fun p s =>
  let (result, s) := p.nestedBy w.runner arguments s
  (result, p, s)

def call (w : Workflow σ) (c : Coordinator) (arguments : Dict Json) : Action σ CallOutcome :=
  fun p s => p.callBy w.runner arguments c s

def compile (w : Workflow σ) (c : Coordinator) : Action σ (Deployment × Spec) := do
  w.prepareIfPossible
  effect c.compile

def register (w : Workflow σ) (c : Coordinator) : Action σ (Record PipelineVersion) := do
  w.prepareIfPossible
  effect c.register

def build (w : Workflow σ) (c : Coordinator) : Action σ (Option (Record Build)) := do
  w.prepareIfPossible
  effect c.build

/-- Runs the pipeline, unless runs are suppressed. -/
def run (w : Workflow σ) (c : Coordinator) : Action σ RunOutcome := fun p s =>
  if c.isSuppressed s.world then (.ok .suppressed, p, s)
  else (do
    w.prepareIfPossible
    effect fun p => .dispatched <$> c.dispatch p : Action σ RunOutcome) p s

/-- The workflow after an action, with its result. -/
def perform (w : Workflow σ) (action : Workflow σ → Action σ α) (s : Session σ) :
    Except Error α × Workflow σ × Session σ :=
  let (result, pipeline, s) := action w w.pipeline s
  (result, { w with pipeline }, s)

end Workflow

end Pipework
