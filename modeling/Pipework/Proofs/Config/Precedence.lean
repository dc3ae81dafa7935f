import Mathlib
import Pipework.Proofs.Json.Path
import Pipework.Proofs.Pipeline.Structure

/-!
# Precedence of configuration

The configuration of a step comes from up to seven layers, which are combined in three places: the
configuration of a run is put on top of that of a file, the result on top of the pipeline, and the
pipeline, the overrides of the step and the call on top of the defaults of the step. Altogether this
makes one order of layers, and each part of the configuration comes from the highest layer that says
something of it.
-/

namespace Pipework

/-! ## Layers on top of each other -/

theorem overridden_eq_findSome? {α β : Type} {f : α → Option β} {base update : Option β}
    {lower upper : List α} (hbase : base = lower.findSome? f)
    (hupdate : update = upper.findSome? f) :
    overridden base update = (upper ++ lower).findSome? f := by
  rw [List.findSome?_append, hbase, hupdate, overridden]

theorem LayerMode.applyUnlessEmpty_merge (base update : Dict Json) :
    LayerMode.merge.applyUnlessEmpty base update = base.merge update := by
  obtain ⟨entries, ascending⟩ := update
  cases entries <;> rfl

theorem Json.Resolves.applyUnlessEmpty {base update : Dict Json} {lower upper : List Json}
    (hbase : (ofDict base).Resolves lower) (hupdate : (ofDict update).Resolves upper) :
    (ofDict (LayerMode.merge.applyUnlessEmpty base update)).Resolves (upper ++ lower) := by
  rw [LayerMode.applyUnlessEmpty_merge, Dict.ofDict_merge]
  exact hbase.merge hupdate

theorem PipelineConfiguration.updatedTable_merge (base update : Dict Json) :
    updatedTable .merge base (if update.isEmpty then none else some update)
      = base.merge update := by
  obtain ⟨entries, ascending⟩ := update
  cases entries <;> rfl

namespace StepLayer

@[simp] theorem layered_empty (l : StepLayer) : l.layered ∅ = l := rfl

/-- What a layer shows of the layers that it was put together from, the highest layer first. -/
structure Combines (l : StepLayer) (layers : List StepLayer) : Prop where
  cache : l.toggles.cache = layers.findSome? (·.toggles.cache)
  artifactMetadata :
    l.toggles.artifactMetadata = layers.findSome? (·.toggles.artifactMetadata)
  artifactVisualization :
    l.toggles.artifactVisualization = layers.findSome? (·.toggles.artifactVisualization)
  experimentTracker : l.experimentTracker = layers.findSome? (·.experimentTracker)
  stepOperator : l.stepOperator = layers.findSome? (·.stepOperator)
  failure : l.hooks.failure = layers.findSome? (·.hooks.failure)
  success : l.hooks.success = layers.findSome? (·.hooks.success)
  settings : (Json.ofDict l.settings).Resolves (layers.map fun l => .ofDict l.settings)
  extra : (Json.ofDict l.extra).Resolves (layers.map fun l => .ofDict l.extra)

theorem combines_self (l : StepLayer) : l.Combines [l] where
  cache := List.findSome?_singleton.symm
  artifactMetadata := List.findSome?_singleton.symm
  artifactVisualization := List.findSome?_singleton.symm
  experimentTracker := List.findSome?_singleton.symm
  stepOperator := List.findSome?_singleton.symm
  failure := List.findSome?_singleton.symm
  success := List.findSome?_singleton.symm
  settings := .single _
  extra := .single _

theorem Combines.layered {base update : StepLayer} {lower upper : List StepLayer}
    (hbase : base.Combines lower) (hupdate : update.Combines upper) :
    (base.layered update).Combines (upper ++ lower) where
  cache := overridden_eq_findSome? hbase.cache hupdate.cache
  artifactMetadata := overridden_eq_findSome? hbase.artifactMetadata hupdate.artifactMetadata
  artifactVisualization :=
    overridden_eq_findSome? hbase.artifactVisualization hupdate.artifactVisualization
  experimentTracker := overridden_eq_findSome? hbase.experimentTracker hupdate.experimentTracker
  stepOperator := overridden_eq_findSome? hbase.stepOperator hupdate.stepOperator
  failure := overridden_eq_findSome? hbase.failure hupdate.failure
  success := overridden_eq_findSome? hbase.success hupdate.success
  settings := by
    rw [List.map_append]
    exact hbase.settings.applyUnlessEmpty hupdate.settings
  extra := by
    rw [List.map_append]
    exact hbase.extra.applyUnlessEmpty hupdate.extra

end StepLayer

namespace RunConfiguration

/-- What a run sets for each step. -/
def stepLayer (r : RunConfiguration) : StepLayer where
  toggles := r.toggles
  settings := r.settings
  extra := r.extra

/-- What a run sets for one step. -/
def override (r : RunConfiguration) (id : String) : StepLayer := (r.steps.get? id).getD ∅

variable (file code : RunConfiguration) (id : String)

theorem stepLayer_layered :
    (file.layered code).stepLayer = file.stepLayer.layered code.stepLayer := by
  simp only [layered, stepLayer, StepLayer.layered, StepLayer.apply,
    LayerMode.applyUnlessEmpty_merge]
  rfl

theorem get?_layeredSteps (base update : Dict StepLayer) :
    (layeredSteps base update).get? id
      = ((update.get? id).map fun l => ((base.get? id).getD ∅).layered l).or (base.get? id) :=
  Dict.get?_foldl_alter (fun l (old : Option StepLayer) => (old.getD ∅).layered l)
    update.ascending base

theorem override_layered :
    (file.layered code).override id = (file.override id).layered (code.override id) := by
  rw [override, layered, get?_layeredSteps]
  cases hcode : code.steps.get? id with
  | none => simp [override, hcode]
  | some l => simp [override, hcode]

/-- The configuration that a run has from its file, empty without a file. -/
def ofFile? : Option File → Except Error RunConfiguration
  | none => .ok ∅
  | some file => ofFile file

theorem load_eq_ok_iff {file : Option File} {run : RunConfiguration} :
    load file code = .ok run ↔ ∃ f, ofFile? file = .ok f ∧ run = f.layered code := by
  cases file with
  | none => simp [load, ofFile?, eq_comm]
  | some file => cases h : ofFile file <;> simp [load, ofFile?, h, Except.map, eq_comm]

end RunConfiguration

theorem PipelineConfiguration.stepLayer_updated (c : PipelineConfiguration)
    (run : RunConfiguration) :
    (c.updated run.pipelineLayer .merge).stepLayer = c.stepLayer.layered run.stepLayer := by
  simp only [updated, stepLayer, RunConfiguration.pipelineLayer, updatedTable_merge,
    StepLayer.layered, StepLayer.apply, LayerMode.applyUnlessEmpty_merge]
  rfl

/-! ## Compiled steps -/

namespace Invocation

/-- What is configured for this very step, the highest layer first: by the call, by the run, by the
file of the run, and by the step. -/
def ownLayers (i : Invocation) (file code : RunConfiguration) : List StepLayer :=
  [i.configuration, code.override i.id, file.override i.id, i.step.defaults]

/-- All layers that the step is configured by, the highest one first. -/
def allLayers (i : Invocation) (c : PipelineConfiguration) (file code : RunConfiguration) :
    List StepLayer :=
  [i.configuration, code.override i.id, file.override i.id, code.stepLayer, file.stepLayer,
    c.stepLayer, i.step.defaults]

end Invocation

/-- The configuration of a step follows these layers, of which some are its own; hooks that none of
its own layers sets are those of the pipeline. -/
structure StepConfiguration.Follows (config : StepConfiguration) (all own : List StepLayer)
    (hooks : HookSources) : Prop where
  cache : config.toggles.cache = all.findSome? (·.toggles.cache)
  artifactMetadata :
    config.toggles.artifactMetadata = all.findSome? (·.toggles.artifactMetadata)
  artifactVisualization :
    config.toggles.artifactVisualization = all.findSome? (·.toggles.artifactVisualization)
  experimentTracker : config.experimentTracker = own.findSome? (·.experimentTracker)
  stepOperator : config.stepOperator = own.findSome? (·.stepOperator)
  failure : config.hooks.failure = (own.findSome? (·.hooks.failure)).or hooks.failure
  success : config.hooks.success = (own.findSome? (·.hooks.success)).or hooks.success
  settings : ∀ path v, ¬ v.IsObject →
    Json.Prevails path v (all.map fun l => .ofDict l.settings) →
    (Json.ofDict config.settings).at? path = some v
  extra : ∀ path v, ¬ v.IsObject → Json.Prevails path v (all.map fun l => .ofDict l.extra) →
    (Json.ofDict config.extra).at? path = some v

namespace Invocation

variable {i : Invocation} {c : PipelineConfiguration} {file code : RunConfiguration}

theorem combines_layers (i : Invocation) (c : PipelineConfiguration)
    (file code : RunConfiguration) :
    (((i.step.defaults.layered (c.stepLayer.layered (file.layered code).stepLayer)).layered
      ((file.layered code).override i.id)).layered i.configuration).Combines
      (i.allLayers c file code) := by
  rw [RunConfiguration.stepLayer_layered, RunConfiguration.override_layered]
  have hrun := c.stepLayer.combines_self.layered
    (file.stepLayer.combines_self.layered code.stepLayer.combines_self)
  have hstep := (file.override i.id).combines_self.layered (code.override i.id).combines_self
  exact ((i.step.defaults.combines_self.layered hrun).layered hstep).layered
    i.configuration.combines_self

theorem layers_eq (i : Invocation) (c : PipelineConfiguration) (override : Option StepLayer) :
    i.layers c override =
      let l := ((i.step.defaults.layered c.stepLayer).layered (override.getD ∅)).layered
        i.configuration
      { l with
        parameters := l.parameters.insertMany i.parameters.entries
        hooks := c.hooks.override l.hooks } := by
  cases override <;> rfl

/-- Pipelines and runs say nothing of these parts of a step. -/
theorem findSome?_allLayers {β : Type} {f : StepLayer → Option β}
    (hrun : ∀ r : RunConfiguration, f r.stepLayer = none) (hpipeline : f c.stepLayer = none) :
    (i.allLayers c file code).findSome? f = (i.ownLayers file code).findSome? f := by
  simp only [allLayers, ownLayers, List.findSome?_cons, hrun, hpipeline]

theorem follows_of_compile {p : Pipeline} {materializers : Materializers} {stackKeys : List String}
    {step : DeploymentStep}
    (h : i.compile (p.configurationFor (file.layered code)) ((file.layered code).steps.get? i.id)
      materializers stackKeys = .ok step) :
    step.config.Follows (i.allLayers p.configuration file code) (i.ownLayers file code)
      p.configuration.hooks := by
  obtain ⟨-, parameters, outputs, -, -, rfl⟩ := compile_eq_ok_iff.1 h
  have hlayers := i.combines_layers p.configuration file code
  rw [← PipelineConfiguration.stepLayer_updated] at hlayers
  rw [stepWith, layers_eq]
  have hobjects {f : StepLayer → Dict Json} :
      ∀ v ∈ (i.allLayers p.configuration file code).map fun l => Json.ofDict (f l),
        v.IsObject := by
    intro v hv
    obtain ⟨l, -, rfl⟩ := List.mem_map.1 hv
    exact Json.isObject_obj _
  exact {
    cache := hlayers.cache
    artifactMetadata := hlayers.artifactMetadata
    artifactVisualization := hlayers.artifactVisualization
    experimentTracker := hlayers.experimentTracker.trans
      (findSome?_allLayers (fun _ => rfl) rfl)
    stepOperator := hlayers.stepOperator.trans (findSome?_allLayers (fun _ => rfl) rfl)
    failure := congrArg (Option.or · p.configuration.hooks.failure)
      (hlayers.failure.trans (findSome?_allLayers (fun _ => rfl) rfl))
    success := congrArg (Option.or · p.configuration.hooks.success)
      (hlayers.success.trans (findSome?_allLayers (fun _ => rfl) rfl))
    settings := fun path v hv h =>
      hlayers.settings.found path v (h.ne_nil hobjects hv) hv h
    extra := fun path v hv h => hlayers.extra.found path v (h.ne_nil hobjects hv) hv h }

end Invocation

namespace Pipeline

/-- Each step of a compiled pipeline follows the layers of its invocation. -/
theorem follows_compileWith {p : Pipeline} {materializers : Materializers} {stack : Stack}
    {file : Option File} {fromFile code run : RunConfiguration} {d : Deployment} {spec : Spec}
    (hfile : RunConfiguration.ofFile? file = .ok fromFile)
    (hload : RunConfiguration.load file code = .ok run)
    (hcompile : p.compileWith materializers stack run = .ok (d, spec)) :
    List.Forall₂ (fun i step => step.config.Follows
      (i.allLayers p.configuration fromFile code) (i.ownLayers fromFile code) p.configuration.hooks)
      p.invocations d.steps := by
  obtain ⟨_, hfile', rfl⟩ := (RunConfiguration.load_eq_ok_iff code).1 hload
  cases hfile.symm.trans hfile'
  obtain ⟨g, steps, h, houtcome⟩ := compileWith_eq_ok_iff.1 hcompile
  cases houtcome
  have hinvocations : p.invocations = g.invocations.toList := by rw [invocations, h.graph]
  rw [hinvocations]
  exact h.steps.imp fun i step hi => Invocation.follows_of_compile hi

end Pipeline

namespace Sample

def runFile : File where
  path := "run.yaml"
  content := .bytes "extra:\n  team: vision\n".toUTF8

def fromRunFile : RunConfiguration := { extra := .ofList [("team", .str "vision")] }

def inCode : RunConfiguration :=
  { toggles := { cache := some false }, extra := .ofList [("owner", .str "ada")] }

theorem ofFile_runFile : RunConfiguration.ofFile runFile = .ok fromRunFile := by
  have htext : String.fromUTF8? "extra:\n  team: vision\n".toUTF8
      = some "extra:\n  team: vision\n" := dif_pos (String.isValidUTF8 _)
  have hread : (Yaml.Node.ofText? "extra:\n  team: vision\n").bind RunConfiguration.read?
      = some fromRunFile := by cbv
  simp only [RunConfiguration.ofFile, runFile, htext, RunConfiguration.ofYaml, hread]
  rw [if_neg (by decide +kernel)]

/-- The deployment of the pipeline with the file and what is set in code. -/
def compiledWithFile : Deployment × Spec :=
  (prepared.compileWith .standard (.recording (.ofNat 1))
    (fromRunFile.layered inCode)).toOption.get (by decide +kernel)

/-- The trainer is not cached, as set in code, and has the extra values of the file. -/
theorem follows_compileWith_trainer :
    RunConfiguration.ofFile? runFile = .ok fromRunFile
    ∧ RunConfiguration.load runFile inCode = .ok (fromRunFile.layered inCode)
    ∧ prepared.compileWith .standard (.recording (.ofNat 1)) (fromRunFile.layered inCode)
        = .ok compiledWithFile
    ∧ ∃ step, compiledWithFile.1.steps[1]? = some step ∧ step.config.name = "trainer"
        ∧ step.config.toggles.cache = some false
        ∧ (Json.ofDict step.config.extra).at? ["team"] = some (.str "vision") := by
  have hfile : RunConfiguration.ofFile? runFile = .ok fromRunFile := ofFile_runFile
  have hload : RunConfiguration.load runFile inCode = .ok (fromRunFile.layered inCode) :=
    (RunConfiguration.load_eq_ok_iff inCode).2 ⟨_, hfile, rfl⟩
  have hcompile : prepared.compileWith .standard (.recording (.ofNat 1))
      (fromRunFile.layered inCode) = .ok compiledWithFile := rfl
  have hfollows := Pipeline.follows_compileWith hfile hload hcompile
  have htrainer := (List.forall₂_iff_get.1 hfollows).2 1 (by decide +kernel) (by decide +kernel)
  refine ⟨hfile, hload, hcompile, _, rfl, rfl, htrainer.cache, ?_⟩
  exact htrainer.extra ["team"] (.str "vision") (by decide) (by decide +kernel)

end Sample

end Pipework
