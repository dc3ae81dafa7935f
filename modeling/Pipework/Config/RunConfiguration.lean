import Pipework.Config.Schedule
import Pipework.Config.StepLayer

/-!
# Configuration of runs

A run configuration sets the run name, switches, schedule, build, settings and overrides of single
steps. Configurations are layered like step layers; tables are always merged.
-/

namespace Pipework

structure RunConfiguration where
  /-- A template that may hold `{date}` and `{time}`. -/
  runName : Option String := none
  toggles : Toggles := {}
  schedule : Option Schedule := none
  /-- An existing build to use. -/
  build : Option Uuid := none
  /-- Overrides by the id of the invocation. -/
  steps : Dict StepLayer := .empty
  settings : Dict Json := .empty
  extra : Dict Json := .empty
  deriving DecidableEq, Inhabited

namespace RunConfiguration

instance : EmptyCollection RunConfiguration := ⟨{}⟩

def withRunName (r : RunConfiguration) (name : String) : RunConfiguration :=
  { r with runName := name }

def withEnableCache (r : RunConfiguration) (enable : Bool) : RunConfiguration :=
  { r with toggles := { r.toggles with cache := enable } }

def withSchedule (r : RunConfiguration) (schedule : Schedule) : RunConfiguration :=
  { r with schedule }

def withBuild (r : RunConfiguration) (build : Uuid) : RunConfiguration := { r with build }

def withSetting (r : RunConfiguration) (key : String) (value : Json) : RunConfiguration :=
  { r with settings := r.settings.insert key value }

def withExtra (r : RunConfiguration) (key : String) (value : Json) : RunConfiguration :=
  { r with extra := r.extra.insert key value }

def withStep (r : RunConfiguration) (id : String) (layer : StepLayer) : RunConfiguration :=
  { r with steps := r.steps.insert id layer }

/-- The overrides of steps with later overrides layered on top, step by step. -/
def layeredSteps (base update : Dict StepLayer) : Dict StepLayer :=
  update.entries.foldl (fun d e => d.alter e.1 fun old => (old.getD ∅).layered e.2) base

/-- The configuration with another one on top. -/
def layered (base update : RunConfiguration) : RunConfiguration where
  runName := overridden base.runName update.runName
  toggles := base.toggles.override update.toggles
  schedule := overridden base.schedule update.schedule
  build := overridden base.build update.build
  steps := layeredSteps base.steps update.steps
  settings := base.settings.merge update.settings
  extra := base.extra.merge update.extra

instance : ToJson RunConfiguration where
  toJson r := Json.object <|
    Json.member? "run_name" r.runName ++ r.toggles.membersIfSet
      ++ Json.member? "schedule" r.schedule ++ Json.member? "build" r.build
      ++ Json.memberUnlessEmpty "steps" r.steps ++ Json.memberUnlessEmpty "settings" r.settings
      ++ Json.memberUnlessEmpty "extra" r.extra

def read? {δ : Type} [Document δ] : Document.Reader δ RunConfiguration :=
  Document.strictRecord? do
    let runName ← Document.Fields.optional "run_name" Document.text?
    let toggles ← Toggles.fields
    let schedule ← Document.Fields.optional "schedule" Schedule.read?
    let build ← Document.Fields.optional "build" Document.uuid?
    let steps ← Document.Fields.defaulted "steps" (Document.dict? StepLayer.read?) .empty
    let settings ← Document.Fields.defaulted "settings" Document.values? .empty
    let extra ← Document.Fields.defaulted "extra" Document.values? .empty
    pure { runName, toggles, schedule, build, steps, settings, extra }

end RunConfiguration

end Pipework
