import Pipework.Config.Toggles

/-!
# Configuration of pipelines

Unlike a step layer, a pipeline layer tells a table that is not set from one that is set and empty.
-/

namespace Pipework

/-- One change of the configuration of a pipeline. -/
structure PipelineLayer where
  toggles : Toggles := {}
  settings : Option (Dict Json) := none
  extra : Option (Dict Json) := none
  hooks : HookSources := {}
  deriving DecidableEq, Inhabited

namespace PipelineLayer

/-- Whether the layer sets nothing. -/
def isEmpty (l : PipelineLayer) : Bool := l == {}

def withEnableCache (l : PipelineLayer) (enable : Bool) : PipelineLayer :=
  { l with toggles := { l.toggles with cache := enable } }

def withArtifactMetadata (l : PipelineLayer) (enable : Bool) : PipelineLayer :=
  { l with toggles := { l.toggles with artifactMetadata := enable } }

def withArtifactVisualization (l : PipelineLayer) (enable : Bool) : PipelineLayer :=
  { l with toggles := { l.toggles with artifactVisualization := enable } }

def withSettings (l : PipelineLayer) (settings : Dict Json) : PipelineLayer :=
  { l with settings := settings }

def withExtra (l : PipelineLayer) (extra : Dict Json) : PipelineLayer :=
  { l with extra := extra }

instance : ToJson PipelineLayer where
  toJson l := Json.object <|
    l.toggles.membersIfSet ++ Json.member? "settings" l.settings ++ Json.member? "extra" l.extra
      ++ l.hooks.membersIfSet

def read? {δ : Type} [Document δ] : Document.Reader δ PipelineLayer :=
  Document.strictRecord? do
    let toggles ← Toggles.fields
    let settings ← Document.Fields.optional "settings" Document.values?
    let extra ← Document.Fields.optional "extra" Document.values?
    let hooks ← HookSources.fields
    pure { toggles, settings, extra, hooks }

end PipelineLayer

/-- The configuration of a pipeline. -/
structure PipelineConfiguration where
  name : String
  toggles : Toggles := {}
  settings : Dict Json := .empty
  extra : Dict Json := .empty
  hooks : HookSources := {}
  deriving DecidableEq, Inhabited

namespace PipelineConfiguration

/-- A table after a layer that may leave it alone. -/
def updatedTable (mode : LayerMode) (base : Dict Json) : Option (Dict Json) → Dict Json
  | none => base
  | some update => mode.apply base update

/-- The configuration with a layer on top. -/
def updated (c : PipelineConfiguration) (update : PipelineLayer) (mode : LayerMode) :
    PipelineConfiguration where
  name := c.name
  toggles := c.toggles.override update.toggles
  settings := updatedTable mode c.settings update.settings
  extra := updatedTable mode c.extra update.extra
  hooks := c.hooks.override update.hooks

/-- Results are reused unless caching is switched off. -/
def cacheEnabled (c : PipelineConfiguration) : Bool := c.toggles.cache != some false

instance : ToJson PipelineConfiguration where
  toJson c := Json.object <|
    Json.member "name" c.name ++ c.toggles.membersIfSet ++ Json.member "settings" c.settings
      ++ Json.member "extra" c.extra ++ c.hooks.membersIfSet

def read? {δ : Type} [Document δ] : Document.Reader δ PipelineConfiguration :=
  Document.record? do
    let name ← Document.Fields.required "name" Document.text?
    let toggles ← Toggles.fields
    let settings ← Document.Fields.defaulted "settings" Document.values? .empty
    let extra ← Document.Fields.defaulted "extra" Document.values? .empty
    let hooks ← HookSources.fields
    pure { name, toggles, settings, extra, hooks }

end PipelineConfiguration

end Pipework
