import Pipework.Config.Source
import Pipework.Json.Merge

/-!
# Parts shared by configuration layers

Steps, pipelines and runs all switch caching, metadata and visualizations, and steps and pipelines
have a hook for failure and one for success. In a later layer what is set wins over what was there.
-/

namespace Pipework

/-- What a later layer sets, or else what an earlier one had. -/
def overridden {α : Type} (base update : Option α) : Option α := update.or base

@[simp] theorem overridden_none {α : Type} (base : Option α) : overridden base none = base := rfl

@[simp] theorem overridden_some {α : Type} (base : Option α) (x : α) :
    overridden base (some x) = some x := rfl

/-- The switches of a layer. -/
structure Toggles where
  cache : Option Bool := none
  artifactMetadata : Option Bool := none
  artifactVisualization : Option Bool := none
  deriving DecidableEq, Repr, Inhabited

namespace Toggles

def override (base update : Toggles) : Toggles where
  cache := overridden base.cache update.cache
  artifactMetadata := overridden base.artifactMetadata update.artifactMetadata
  artifactVisualization := overridden base.artifactVisualization update.artifactVisualization

/-- The members for switches that are set. -/
def membersIfSet (t : Toggles) : List (String × Json) :=
  Json.member? "enable_cache" t.cache
    ++ Json.member? "enable_artifact_metadata" t.artifactMetadata
    ++ Json.member? "enable_artifact_visualization" t.artifactVisualization

/-- The members for all switches, null where not set. -/
def members (t : Toggles) : List (String × Json) :=
  Json.member "enable_cache" t.cache
    ++ Json.member "enable_artifact_metadata" t.artifactMetadata
    ++ Json.member "enable_artifact_visualization" t.artifactVisualization

variable {δ : Type} [Document δ]

def fields : Document.FieldReader δ Toggles := do
  let cache ← Document.Fields.optional "enable_cache" Document.bool?
  let artifactMetadata ← Document.Fields.optional "enable_artifact_metadata" Document.bool?
  let artifactVisualization ←
    Document.Fields.optional "enable_artifact_visualization" Document.bool?
  pure { cache, artifactMetadata, artifactVisualization }

/-- The switches of a record that always writes them. -/
def nullableFields : Document.FieldReader δ Toggles := do
  let cache ← Document.Fields.nullable "enable_cache" Document.bool?
  let artifactMetadata ← Document.Fields.nullable "enable_artifact_metadata" Document.bool?
  let artifactVisualization ←
    Document.Fields.nullable "enable_artifact_visualization" Document.bool?
  pure { cache, artifactMetadata, artifactVisualization }

end Toggles

/-- The hooks of a layer. -/
structure HookSources where
  failure : Option Source := none
  success : Option Source := none
  deriving DecidableEq, Repr, Inhabited

namespace HookSources

def override (base update : HookSources) : HookSources where
  failure := overridden base.failure update.failure
  success := overridden base.success update.success

def membersIfSet (h : HookSources) : List (String × Json) :=
  Json.member? "failure_hook_source" h.failure ++ Json.member? "success_hook_source" h.success

def members (h : HookSources) : List (String × Json) :=
  Json.member "failure_hook_source" h.failure ++ Json.member "success_hook_source" h.success

variable {δ : Type} [Document δ]

def fields : Document.FieldReader δ HookSources := do
  let failure ← Document.Fields.optional "failure_hook_source" Source.read?
  let success ← Document.Fields.optional "success_hook_source" Source.read?
  pure { failure, success }

/-- The hooks of a record that always writes them. -/
def nullableFields : Document.FieldReader δ HookSources := do
  let failure ← Document.Fields.nullable "failure_hook_source" Source.read?
  let success ← Document.Fields.nullable "success_hook_source" Source.read?
  pure { failure, success }

end HookSources

/-- How a layer changes a table: merged into it, or put in its place. -/
inductive LayerMode where
  | merge
  | replace
  deriving DecidableEq, Repr

/-- A table after a layer that holds a table of its own. -/
def LayerMode.apply (mode : LayerMode) (base update : Dict Json) : Dict Json :=
  match mode with
  | .merge => base.merge update
  | .replace => update

/-- A table after a layer, unchanged by an empty one. -/
def LayerMode.applyUnlessEmpty (mode : LayerMode) (base update : Dict Json) : Dict Json :=
  if update.isEmpty then base else mode.apply base update

end Pipework
