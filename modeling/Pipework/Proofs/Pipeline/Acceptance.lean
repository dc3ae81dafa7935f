import Pipework.Proofs.Config.Names
import Pipework.Proofs.Config.SettingKey

/-!
# Accepted pipelines

Compilation checks what the layers come to when they are merged. What it accepts can be said of each
layer by itself: a prepared pipeline compiles if and only if every layer that it is configured by is
in order, and together they give each step what it needs.
-/

namespace Pipework

/-! ## Schedules -/

namespace Schedule

/-- There is a start time and an interval. -/
def IsInterval (s : Schedule) : Prop := s.startTime.isSome ∧ s.intervalSecond.isSome

/-- The schedule goes either by a cron expression of at least five words or by an interval, and it
does not end before it starts. -/
structure Valid (s : Schedule) : Prop where
  kind : Xor s.cronExpression.isSome s.IsInterval
  cron : ∀ expression, s.cronExpression = some expression → 5 ≤ Text.words expression
  order : ∀ first last, s.startTime = some first → s.endTime = some last → first.before last

variable {s : Schedule}

theorem orderError?_eq_none_iff : s.orderError? = none ↔
    ∀ first last, s.startTime = some first → s.endTime = some last → first.before last := by
  rw [orderError?]
  cases s.startTime <;> cases s.endTime <;> simp

theorem error?_eq_none_iff : s.error? = none ↔ s.Valid := by
  have hvalid : s.Valid ↔ Xor s.cronExpression.isSome s.IsInterval
      ∧ (∀ expression, s.cronExpression = some expression → 5 ≤ Text.words expression)
      ∧ s.orderError? = none := by
    rw [orderError?_eq_none_iff]
    exact ⟨fun h => ⟨h.kind, h.cron, h.order⟩, fun h => ⟨h.1, h.2.1, h.2.2⟩⟩
  rw [hvalid, error?, IsInterval]
  cases s.cronExpression with
  | none => by_cases hinterval : s.startTime.isSome ∧ s.intervalSecond.isSome <;>
      simp [hinterval, Xor]
  | some expression =>
    by_cases hinterval : s.startTime.isSome ∧ s.intervalSecond.isSome
    · simp [hinterval, Xor]
    · by_cases hcron : 5 ≤ Text.words expression <;> simp [hinterval, hcron, isCron, Xor]

end Schedule

/-! ## Invocations -/

namespace Invocation

/-- What is configured for an invocation by its step, by the run and by the call. -/
def givenLayers (i : Invocation) (run : RunConfiguration) : List StepLayer :=
  [i.step.defaults, run.override i.id, i.configuration]

/-- A parameter has a value in some layer or in the call itself. -/
def GivesParameter (i : Invocation) (run : RunConfiguration) (name : String) : Prop :=
  (∃ l ∈ i.givenLayers run, name ∈ l.parameters.keys) ∨ name ∈ i.parameters.keys

/-- The layers of an invocation are in order, one by one, and give the step what it needs. -/
structure Valid (i : Invocation) (materializers : Materializers) (stackKeys : List String)
    (run : RunConfiguration) : Prop where
  settings : ∀ l ∈ i.givenLayers run, ∀ key ∈ l.settings.keys, SettingKey.Accepted stackKeys key
  declaredParameters : ∀ name, i.GivesParameter run name → name ∈ i.step.signature.parameters.keys
  requiredParameters : ∀ name,
    i.step.signature.parameters.get? name = some none → i.GivesParameter run name
  declaredOutputs : ∀ l ∈ i.givenLayers run,
    ∀ output ∈ l.outputs.keys, output ∈ i.step.signature.outputs.keys
  materializers : ∀ output typeName, i.step.signature.outputs.get? output = some typeName →
    (∃ l ∈ i.givenLayers run, (l.materializer? output).isSome)
    ∨ (materializers.find? typeName).isSome

variable {i : Invocation} {c : PipelineConfiguration} {run : RunConfiguration}
  {materializers : Materializers} {stackKeys : List String} {pipeline : String}

theorem collects_layers (i : Invocation) (c : PipelineConfiguration) (run : RunConfiguration) :
    (((i.step.defaults.layered c.stepLayer).layered (run.override i.id)).layered
      i.configuration).Collects
      [i.step.defaults, c.stepLayer, run.override i.id, i.configuration] :=
  (((StepLayer.Collects.single _).layered (.single _)).layered (.single _)).layered (.single _)

theorem mem_keys_settings_layers {key : String} :
    key ∈ (i.layers c (run.steps.get? i.id)).settings.keys ↔
      key ∈ c.settings.keys ∨ ∃ l ∈ i.givenLayers run, key ∈ l.settings.keys := by
  have hkeys := (i.collects_layers c run).settings key
  rw [layers_eq]
  refine hkeys.trans ?_
  simp [givenLayers, PipelineConfiguration.stepLayer, or_left_comm]

theorem mem_keys_parameters_layers {name : String} :
    name ∈ (i.layers c (run.steps.get? i.id)).parameters.keys ↔ i.GivesParameter run name := by
  have hkeys := (i.collects_layers c run).parameters name
  have hpipeline : name ∉ c.stepLayer.parameters.keys := List.not_mem_nil
  rw [layers_eq, Dict.mem_keys_insertMany]
  change _ ∨ name ∈ i.parameters.keys ↔ _
  refine (or_congr_left hkeys).trans ?_
  simp [GivesParameter, givenLayers, hpipeline]

theorem mem_keys_outputs_layers {output : String} :
    output ∈ (i.layers c (run.steps.get? i.id)).outputs.keys ↔
      ∃ l ∈ i.givenLayers run, output ∈ l.outputs.keys := by
  have hkeys := (i.collects_layers c run).outputs output
  have hpipeline : output ∉ c.stepLayer.outputs.keys := List.not_mem_nil
  rw [layers_eq]
  refine hkeys.trans ?_
  simp [givenLayers, hpipeline]

theorem isSome_materializer?_layers {output : String} :
    ((i.layers c (run.steps.get? i.id)).materializer? output).isSome ↔
      ∃ l ∈ i.givenLayers run, (l.materializer? output).isSome := by
  have hsome := (i.collects_layers c run).materializers output
  have hpipeline : c.stepLayer.materializer? output = none := rfl
  rw [layers_eq]
  refine hsome.trans ?_
  simp [givenLayers, hpipeline]

/-- Parameters are resolved if and only if those given are declared and those needed are given. -/
theorem exists_resolveParameters_iff {given : Dict Json} :
    (∃ parameters, i.resolveParameters pipeline given = .ok parameters)
      ↔ (∀ name ∈ given.keys, name ∈ i.step.signature.parameters.keys)
        ∧ ∀ name, i.step.signature.parameters.get? name = some none → name ∈ given.keys := by
  rw [← Dict.firstUnknown?_eq_none_iff, ← Dict.exists_withDefaults_iff, resolveParameters]
  cases given.firstUnknown? i.step.signature.parameters with
  | some name => simp
  | none => cases given.withDefaults i.step.signature.parameters <;> simp

theorem exists_resolveOutput_iff {layered : Dict OutputLayer} {output typeName : String} :
    (∃ o, i.resolveOutput pipeline materializers layered output typeName = .ok o)
      ↔ ((layered.get? output).bind (·.materializer)).isSome
        ∨ (materializers.find? typeName).isSome := by
  rw [resolveOutput, ← Bool.or_eq_true, ← Option.isSome_or]
  cases ((layered.get? output).bind (·.materializer)).or (materializers.find? typeName) <;> simp

/-- Outputs can be resolved if and only if those named are declared and each declared one has a
materializer. -/
theorem exists_resolveOutputs_iff {layered : Dict OutputLayer} :
    (∃ outputs, i.resolveOutputs pipeline materializers layered = .ok outputs)
      ↔ (∀ output ∈ layered.keys, output ∈ i.step.signature.outputs.keys)
        ∧ ∀ output typeName, i.step.signature.outputs.get? output = some typeName →
          ((layered.get? output).bind (·.materializer)).isSome
          ∨ (materializers.find? typeName).isSome := by
  rw [← Dict.firstUnknown?_eq_none_iff, resolveOutputs]
  cases layered.firstUnknown? i.step.signature.outputs with
  | some output => simp
  | none => simp only [Dict.exists_traverse_iff, exists_resolveOutput_iff, true_and]

/-- With a pipeline whose settings are accepted, an invocation compiles if and only if it is
valid. -/
theorem exists_compile_iff (hc : ∀ key ∈ c.settings.keys, SettingKey.Accepted stackKeys key) :
    (∃ step, i.compile c (run.steps.get? i.id) materializers stackKeys = .ok step)
      ↔ i.Valid materializers stackKeys run := by
  have hcompile : (∃ step, i.compile c (run.steps.get? i.id) materializers stackKeys = .ok step)
      ↔ SettingKey.validate c.name (i.layers c (run.steps.get? i.id)).settings.keys
          (some stackKeys) = .ok ()
        ∧ (∃ parameters, i.resolveParameters c.name
          (i.layers c (run.steps.get? i.id)).parameters = .ok parameters)
        ∧ ∃ outputs, i.resolveOutputs c.name materializers
          (i.layers c (run.steps.get? i.id)).outputs = .ok outputs := by
    simp only [compile_eq_ok_iff]
    constructor
    · rintro ⟨_, hsettings, parameters, outputs, hparameters, houtputs, -⟩
      exact ⟨hsettings, ⟨parameters, hparameters⟩, outputs, houtputs⟩
    · rintro ⟨hsettings, ⟨parameters, hparameters⟩, outputs, houtputs⟩
      exact ⟨_, hsettings, parameters, outputs, hparameters, houtputs, rfl⟩
  rw [hcompile, SettingKey.validate_eq_ok_iff, exists_resolveParameters_iff,
    exists_resolveOutputs_iff]
  simp only [mem_keys_settings_layers, mem_keys_parameters_layers, mem_keys_outputs_layers]
  constructor
  · rintro ⟨hsettings, ⟨hdeclared, hrequired⟩, houtputs, hmaterializers⟩
    refine ⟨?_, hdeclared, hrequired, ?_, ?_⟩
    · intro l hl key hkey
      exact hsettings key (.inr ⟨l, hl, hkey⟩)
    · intro l hl output houtput
      exact houtputs output ⟨l, hl, houtput⟩
    · intro output typeName houtput
      exact (hmaterializers output typeName houtput).imp_left isSome_materializer?_layers.1
  · intro h
    refine ⟨?_, ⟨h.declaredParameters, h.requiredParameters⟩, ?_, ?_⟩
    · rintro key (hkey | ⟨l, hl, hkey⟩)
      · exact hc key hkey
      · exact h.settings l hl key hkey
    · rintro output ⟨l, hl, houtput⟩
      exact h.declaredOutputs l hl output houtput
    · intro output typeName houtput
      exact (h.materializers output typeName houtput).imp_left isSome_materializer?_layers.2

end Invocation

/-! ## Pipelines -/

namespace Pipeline

/-- Everything that a pipeline is configured by is in order, layer by layer. -/
structure Acceptable (p : Pipeline) (materializers : Materializers) (stack : Stack)
    (run : RunConfiguration) : Prop where
  settings : ∀ key ∈ p.configuration.settings.keys,
    SettingKey.Accepted stack.settingKeys.keys key
  runSettings : ∀ key ∈ run.settings.keys, SettingKey.Accepted stack.settingKeys.keys key
  overrides : ∀ id ∈ run.steps.keys, id ∈ p.invocations.map (·.id)
  schedule : ∀ s, run.schedule = some s → s.Valid
  invocations : ∀ i ∈ p.invocations, i.Valid materializers stack.settingKeys.keys run

variable {p : Pipeline} {materializers : Materializers} {stack : Stack} {run : RunConfiguration}

theorem mem_keys_settings_configurationFor {key : String} :
    key ∈ (p.configurationFor run).settings.keys ↔
      key ∈ p.configuration.settings.keys ∨ key ∈ run.settings.keys := by
  have hsettings : (p.configurationFor run).settings
      = p.configuration.settings.merge run.settings :=
    PipelineConfiguration.updatedTable_merge _ _
  rw [hsettings, Dict.mem_keys_merge]

theorem checkSchedule_eq_ok_iff {name : String} :
    checkSchedule name run = .ok () ↔ ∀ s, run.schedule = some s → s.Valid := by
  rw [checkSchedule]
  cases run.schedule with
  | none => simp
  | some s => cases herror : s.error? <;> simp [← Schedule.error?_eq_none_iff, herror]

theorem exists_compileWith_iff_of_graph {g : Graph} (hgraph : p.graph = some g) (hg : g.Coherent) :
    (∃ d spec, p.compileWith materializers stack run = .ok (d, spec))
      ↔ p.Acceptable materializers stack run := by
  have hinvocations : p.invocations = g.invocations.toList := by rw [invocations, hgraph]
  have hids : ∀ id, g.contains id = true ↔ id ∈ p.invocations.map (·.id) := by
    intro id
    rw [hg.contains_iff, hinvocations]
    rfl
  have hcompiles : (∃ d spec, p.compileWith materializers stack run = .ok (d, spec))
      ↔ ∃ steps, p.Compiles materializers stack run g steps := by
    simp only [compileWith_eq_ok_iff]
    constructor
    · rintro ⟨_, _, g', steps, h, -⟩
      cases hgraph.symm.trans h.graph
      exact ⟨steps, h⟩
    · rintro ⟨steps, h⟩
      exact ⟨_, _, g, steps, h, rfl⟩
  rw [hcompiles]
  constructor
  · rintro ⟨steps, h⟩
    have hsettings := SettingKey.validate_eq_ok_iff.1 h.settings
    refine ⟨?_, ?_, ?_, checkSchedule_eq_ok_iff.1 h.schedule, ?_⟩
    · intro key hkey
      exact hsettings key (mem_keys_settings_configurationFor.2 (.inl hkey))
    · intro key hkey
      exact hsettings key (mem_keys_settings_configurationFor.2 (.inr hkey))
    · intro id hid
      exact (hids id).1 (h.overrides id hid)
    · intro i hi
      rw [hinvocations] at hi
      exact (Invocation.exists_compile_iff hsettings).1 (exists_forall₂_iff.1 ⟨_, h.steps⟩ i hi)
  · intro h
    have hsettings : ∀ key ∈ (p.configurationFor run).settings.keys,
        SettingKey.Accepted stack.settingKeys.keys key := by
      intro key hkey
      rcases mem_keys_settings_configurationFor.1 hkey with hkey | hkey
      · exact h.settings key hkey
      · exact h.runSettings key hkey
    obtain ⟨steps, hsteps⟩ := exists_forall₂_iff.2 fun i hi =>
      (Invocation.exists_compile_iff hsettings).2 (h.invocations i (hinvocations ▸ hi))
    exact ⟨steps, hgraph, SettingKey.validate_eq_ok_iff.2 hsettings,
      fun id hid => (hids id).2 (h.overrides id hid), checkSchedule_eq_ok_iff.2 h.schedule, hsteps⟩

end Pipeline

namespace Workflow

variable {σ : Type}

/-- However a workflow has been prepared and configured afterwards, it compiles if and only if it
is acceptable. -/
theorem exists_compileWith_iff {w : Workflow σ} {p p' q : Pipeline} {s s' : Session σ}
    {arguments : Dict Json} {materializers : Materializers} {stack : Stack}
    {run : RunConfiguration} (hprepare : w.prepare arguments p s = (.ok (), p', s'))
    (hgraph : q.graph = p'.graph) :
    (∃ d spec, q.compileWith materializers stack run = .ok (d, spec))
      ↔ q.Acceptable materializers stack run := by
  obtain ⟨g, hg, hcoherent⟩ := exists_coherent_graph hprepare
  exact Pipeline.exists_compileWith_iff_of_graph (hgraph.trans hg) hcoherent

end Workflow

namespace Sample

/-- A run with settings for the orchestrator of one flavor. -/
def runOn (flavor : String) : RunConfiguration :=
  (∅ : RunConfiguration).withSetting ("orchestrator." ++ flavor) (.obj [])

/-- The pipeline is acceptable with settings for the orchestrator of its stack, and not with
settings for another one. -/
theorem exists_compileWith_iff_training :
    (⟨training, entry⟩ : Workflow Unit).prepare .empty training
        { world := .initial, memory := () } = (.ok (), prepared, preparedSession)
    ∧ prepared.Acceptable .standard (.recording (.ofNat 1)) (runOn "local")
    ∧ ¬ prepared.Acceptable .standard (.recording (.ofNat 1)) (runOn "kubernetes") := by
  refine ⟨prepare_training, ?_, ?_⟩
  · have haccepted : (prepared.compileWith .standard (.recording (.ofNat 1))
        (runOn "local")).isOk = true := by decide +kernel
    cases hcompile : prepared.compileWith .standard (.recording (.ofNat 1)) (runOn "local") with
    | error e => simp [hcompile, Except.isOk, Except.toBool] at haccepted
    | ok compiled =>
      exact (Workflow.exists_compileWith_iff prepare_training rfl).1 ⟨_, _, hcompile⟩
  · intro h
    obtain ⟨d, spec, hcompile⟩ := (Workflow.exists_compileWith_iff prepare_training rfl).2 h
    have hrefused : (prepared.compileWith .standard (.recording (.ofNat 1))
        (runOn "kubernetes")).isOk = false := by decide +kernel
    rw [hcompile] at hrefused
    cases hrefused

end Sample

end Pipework
