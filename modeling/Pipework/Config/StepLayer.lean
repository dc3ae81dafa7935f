import Pipework.Config.Toggles

/-!
# Configuration of steps

A step layer sets part of the configuration of a step. Layers are put on top of each other:
defaults of the step, the pipeline, the run, the call. The result becomes a `StepConfiguration`
once outputs and external inputs are resolved.
-/

namespace Pipework

/-- What a layer says of one output. -/
structure OutputLayer where
  materializer : Option Source := none
  deriving DecidableEq, Repr, Inhabited

namespace OutputLayer

instance : ToJson OutputLayer where
  toJson o := Json.object (Json.member? "materializer_source" o.materializer)

def read? {δ : Type} [Document δ] : Document.Reader δ OutputLayer :=
  Document.strictRecord? do
    let materializer ← Document.Fields.optional "materializer_source" Source.read?
    pure { materializer }

/-- An output after a later layer. -/
def override (base update : OutputLayer) : OutputLayer :=
  ⟨overridden base.materializer update.materializer⟩

end OutputLayer

/-- One layer of step configuration. -/
structure StepLayer where
  toggles : Toggles := {}
  experimentTracker : Option String := none
  stepOperator : Option String := none
  parameters : Dict Json := .empty
  settings : Dict Json := .empty
  extra : Dict Json := .empty
  hooks : HookSources := {}
  outputs : Dict OutputLayer := .empty
  deriving DecidableEq, Inhabited

namespace StepLayer

instance : EmptyCollection StepLayer := ⟨{}⟩

def withEnableCache (l : StepLayer) (enable : Bool) : StepLayer :=
  { l with toggles := { l.toggles with cache := enable } }

def withParameter (l : StepLayer) (name : String) (value : Json) : StepLayer :=
  { l with parameters := l.parameters.insert name value }

def withSetting (l : StepLayer) (key : String) (value : Json) : StepLayer :=
  { l with settings := l.settings.insert key value }

def withExtra (l : StepLayer) (key : String) (value : Json) : StepLayer :=
  { l with extra := l.extra.insert key value }

def withOutputMaterializer (l : StepLayer) (output : String) (source : Source) : StepLayer :=
  { l with outputs := l.outputs.insert output ⟨source⟩ }

/-- The outputs after a layer: replaced as a whole or one by one, unchanged by an empty layer. -/
def applyOutputs (mode : LayerMode) (base update : Dict OutputLayer) : Dict OutputLayer :=
  if update.isEmpty then base
  else
    let kept := match mode with
      | .merge => base
      | .replace => .empty
    update.entries.foldl (fun d e => d.alter e.1 fun old => (old.getD {}).override e.2) kept

/-- This layer with another one on top. -/
def apply (base update : StepLayer) (mode : LayerMode) : StepLayer where
  toggles := base.toggles.override update.toggles
  experimentTracker := overridden base.experimentTracker update.experimentTracker
  stepOperator := overridden base.stepOperator update.stepOperator
  parameters := mode.applyUnlessEmpty base.parameters update.parameters
  settings := mode.applyUnlessEmpty base.settings update.settings
  extra := mode.applyUnlessEmpty base.extra update.extra
  hooks := base.hooks.override update.hooks
  outputs := applyOutputs mode base.outputs update.outputs

/-- This layer with another one merged on top. -/
def layered (base update : StepLayer) : StepLayer := base.apply update .merge

instance : ToJson StepLayer where
  toJson l := Json.object <|
    l.toggles.membersIfSet ++ Json.member? "experiment_tracker" l.experimentTracker
      ++ Json.member? "step_operator" l.stepOperator
      ++ Json.memberUnlessEmpty "parameters" l.parameters
      ++ Json.memberUnlessEmpty "settings" l.settings ++ Json.memberUnlessEmpty "extra" l.extra
      ++ l.hooks.membersIfSet ++ Json.memberUnlessEmpty "outputs" l.outputs

def read? {δ : Type} [Document δ] : Document.Reader δ StepLayer :=
  Document.strictRecord? do
    let toggles ← Toggles.fields
    let experimentTracker ← Document.Fields.optional "experiment_tracker" Document.text?
    let stepOperator ← Document.Fields.optional "step_operator" Document.text?
    let parameters ← Document.Fields.defaulted "parameters" Document.values? .empty
    let settings ← Document.Fields.defaulted "settings" Document.values? .empty
    let extra ← Document.Fields.defaulted "extra" Document.values? .empty
    let hooks ← HookSources.fields
    let outputs ← Document.Fields.defaulted "outputs" (Document.dict? OutputLayer.read?) .empty
    pure { toggles, experimentTracker, stepOperator, parameters, settings, extra, hooks, outputs }

end StepLayer

/-- A resolved output of a step. -/
structure OutputConfiguration where
  typeName : String
  /-- What stores the values of the output. -/
  materializer : Source
  deriving DecidableEq, Repr

namespace OutputConfiguration

instance : ToJson OutputConfiguration where
  toJson o := Json.object <|
    Json.member "type_name" o.typeName ++ Json.member "materializer_source" o.materializer

def read? {δ : Type} [Document δ] : Document.Reader δ OutputConfiguration :=
  Document.record? do
    let typeName ← Document.Fields.required "type_name" Document.text?
    let materializer ← Document.Fields.required "materializer_source" Source.read?
    pure { typeName, materializer }

end OutputConfiguration

/-- A resolved input that no step produces. -/
structure ExternalInput where
  /-- The artifact in the artifact store, if it exists there already. -/
  id : Option Uuid := none
  /-- The value to upload before the step runs. -/
  value : Option Json := none
  contentHash : String
  materializer : Option Source := none
  deriving DecidableEq

namespace ExternalInput

instance : ToJson ExternalInput where
  toJson e := Json.object <|
    Json.member? "id" e.id ++ Json.member? "value" e.value
      ++ Json.member "content_hash" e.contentHash
      ++ Json.member? "materializer_source" e.materializer

def read? {δ : Type} [Document δ] : Document.Reader δ ExternalInput :=
  Document.record? do
    let id ← Document.Fields.optional "id" Document.uuid?
    let value ← Document.Fields.optional "value" Document.json?
    let contentHash ← Document.Fields.required "content_hash" Document.text?
    let materializer ← Document.Fields.optional "materializer_source" Source.read?
    pure { id, value, contentHash, materializer }

end ExternalInput

/-- The resolved configuration of a step invocation. -/
structure StepConfiguration where
  /-- The id of the invocation. -/
  name : String
  toggles : Toggles
  experimentTracker : Option String
  stepOperator : Option String
  parameters : Dict Json
  settings : Dict Json
  extra : Dict Json
  hooks : HookSources
  outputs : Dict OutputConfiguration := .empty
  externalInputs : Dict ExternalInput := .empty
  deriving DecidableEq

namespace StepConfiguration

/-- The configuration that all layers together give, without outputs and external inputs. -/
def ofLayer (name : String) (l : StepLayer) : StepConfiguration where
  name
  toggles := l.toggles
  experimentTracker := l.experimentTracker
  stepOperator := l.stepOperator
  parameters := l.parameters
  settings := l.settings
  extra := l.extra
  hooks := l.hooks

/-- Results are reused unless caching is switched off. -/
def cacheEnabled (c : StepConfiguration) : Bool := c.toggles.cache.getD true

instance : ToJson StepConfiguration where
  toJson c := Json.object <|
    Json.member "name" c.name ++ c.toggles.members
      ++ Json.member "experiment_tracker" c.experimentTracker
      ++ Json.member "step_operator" c.stepOperator ++ Json.member "parameters" c.parameters
      ++ Json.member "settings" c.settings ++ Json.member "extra" c.extra ++ c.hooks.members
      ++ Json.member "outputs" c.outputs
      ++ Json.member "external_input_artifacts" c.externalInputs

def read? {δ : Type} [Document δ] : Document.Reader δ StepConfiguration :=
  Document.record? do
    let name ← Document.Fields.required "name" Document.text?
    let toggles ← Toggles.nullableFields
    let experimentTracker ← Document.Fields.nullable "experiment_tracker" Document.text?
    let stepOperator ← Document.Fields.nullable "step_operator" Document.text?
    let parameters ← Document.Fields.required "parameters" Document.values?
    let settings ← Document.Fields.required "settings" Document.values?
    let extra ← Document.Fields.required "extra" Document.values?
    let hooks ← HookSources.nullableFields
    let outputs ← Document.Fields.required "outputs" (Document.dict? OutputConfiguration.read?)
    let externalInputs ←
      Document.Fields.required "external_input_artifacts" (Document.dict? ExternalInput.read?)
    pure { name, toggles, experimentTracker, stepOperator, parameters, settings, extra, hooks,
           outputs, externalInputs }

end StepConfiguration

end Pipework
