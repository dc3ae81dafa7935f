import Pipework.Program.Template
import Pipework.Proofs.Document.Configuration
import Pipework.Proofs.Pipeline.Acceptance

/-!
# Templates

The template of a run configuration is itself a run configuration. It sets no switch, hook or
materializer, names nothing that the pipeline or the stack does not know, and lists each parameter,
with null where there is no default. So whatever compiles without a run configuration compiles with
the template as well, and all that can differ are settings and the values of parameters
(`Workflow.template_acceptable`).
-/

namespace Pipework

open Document Document.Fields

/-! ## What a template reads as -/

/-- What the template sets for a step. -/
def Invocation.templateLayer (i : Invocation) (stack : Stack) : StepLayer where
  parameters := i.step.signature.parameters.map (·.getD .null)
  settings := Pipeline.settingsTemplate stack
  outputs := i.step.signature.outputs.map fun _ => {}

/-- The run configuration that the template of a pipeline stands for. -/
def Pipeline.templateRun (p : Pipeline) (stack : Stack) : RunConfiguration where
  steps := .ofList (p.invocations.map fun i => (i.id, i.templateLayer stack))
  settings := Pipeline.settingsTemplate stack

theorem OutputLayer.readAs_null :
    ReadAs read? (Json.object [("materializer_source", .null)]) ({} : OutputLayer) :=
  .strictRecord rfl (.bind .optional_null .pure) rfl (by decide)

theorem Toggles.reads_null : Reads fields names [("enable_cache", .null)] {} :=
  .of_eq (.bind .optional_null <| .bind .optional_absent <| .bind .optional_absent .pure) rfl

theorem HookSources.reads_absent : Reads fields names [] {} :=
  .of_eq (.bind .optional_absent <| .bind .optional_absent .pure) rfl

theorem Pipeline.readAs_stepTemplate (stack : Stack) (i : Invocation) :
    ReadAs StepLayer.read? (stepTemplate stack i) (i.templateLayer stack) := by
  have hparameters : ReadAs values? i.step.signature.parameters
      (i.step.signature.parameters.map (·.getD .null)) :=
    .dict_of_eq fun default _ => by cases default <;> rfl
  have houtputs : ReadAs (dict? OutputLayer.read?)
      (i.step.signature.outputs.map fun _ => Json.object [("materializer_source", .null)])
      (i.step.signature.outputs.map fun _ => {}) := by
    refine ⟨?_, rfl⟩
    change dict? OutputLayer.read? (Json.ofDict ((i.step.signature.outputs.map _).map toJson)) = _
    rw [Dict.map_map]
    exact ReadAs.dict?_ofDict fun _ _ => OutputLayer.readAs_null.reads
  refine .strictRecord rfl (.bind Toggles.reads_null <| .bind .optional_absent <|
    .bind .optional_absent <| .bind (.defaulted hparameters) <|
    .bind (.defaulted (.values (settingsTemplate stack))) <| .bind (.defaulted (.values .empty)) <|
    .bind HookSources.reads_absent <| .bind (.defaulted houtputs) .pure) rfl (by decide)

theorem Pipeline.readAs_template (p : Pipeline) (stack : Stack) :
    ReadAs RunConfiguration.read? (p.template stack) (p.templateRun stack) := by
  have hsteps : ReadAs (dict? StepLayer.read?)
      (Json.object (p.invocations.map fun i => (i.id, stepTemplate stack i)))
      (Dict.ofList (p.invocations.map fun i => (i.id, i.templateLayer stack))) := by
    let byId : Dict Invocation := .ofList (p.invocations.map fun i => (i.id, i))
    have hread : dict? StepLayer.read? (Json.ofDict (byId.map (stepTemplate stack)))
        = some (byId.map (·.templateLayer stack)) :=
      ReadAs.dict?_ofDict fun i _ => (readAs_stepTemplate stack i).reads
    rw [Dict.map_ofList, Dict.map_ofList, List.map_map, List.map_map] at hread
    exact ⟨hread, rfl⟩
  have hsettings := ReadAs.values (settingsTemplate stack)
  let unset : List (String × Json) := ["run_name", "enable_cache", "enable_artifact_metadata",
    "enable_artifact_visualization", "schedule", "build"].map (·, .null)
  let tables : List (String × Json) := [("settings", toJson (settingsTemplate stack)),
    ("extra", .obj [])]
  let steps : String × Json :=
    ("steps", Json.object (p.invocations.map fun i => (i.id, stepTemplate stack i)))
  -- The template lists the steps last, and they are read before the other tables.
  have horder : (unset ++ (tables ++ [steps])).Perm (unset ++ steps :: tables) :=
    (List.perm_append_singleton steps tables).append_left unset
  have hobject : p.template stack = Json.object (unset ++ steps :: tables) :=
    congrArg Json.ofDict (Dict.ofList_of_perm horder (by simp))
  exact .strictRecord hobject (.bind .optional_null <|
    .bind (.bind .optional_null <| .bind .optional_null <| .bind .optional_null .pure) <|
    .bind .optional_null <| .bind .optional_null <| .bind (.defaulted hsteps) <|
    .bind (.defaulted hsettings) <| .bind (.defaulted (.values .empty)) .pure) rfl (by decide)

/-! ## What a template leaves alone -/

/-- Whether two steps differ in nothing but their settings and the values of their parameters. -/
structure DeploymentStep.Agrees (a b : DeploymentStep) : Prop where
  spec : b.spec = a.spec
  name : b.config.name = a.config.name
  toggles : b.config.toggles = a.config.toggles
  hooks : b.config.hooks = a.config.hooks
  experimentTracker : b.config.experimentTracker = a.config.experimentTracker
  stepOperator : b.config.stepOperator = a.config.stepOperator
  extra : b.config.extra = a.config.extra
  /-- Type names and materializers. -/
  outputs : b.config.outputs = a.config.outputs
  externalInputs : b.config.externalInputs = a.config.externalInputs

/-- Whether two deployments differ in nothing but settings and the values of parameters of steps. -/
structure Deployment.Agrees (a b : Deployment) : Prop where
  configuration :
    b.configuration = { a.configuration with settings := b.configuration.settings }
  steps : List.Forall₂ DeploymentStep.Agrees a.steps b.steps
  rest : b = { a with configuration := b.configuration, steps := b.steps }

namespace SettingKey

/-- A template names no settings but those that the stack accepts. -/
theorem accepted_of_mem_template {stack : Stack} {key : String}
    (hkeys : ∀ key ∈ stack.settingKeys.keys, ∃ componentType flavor,
      Addresses key componentType flavor)
    (h : key ∈ (Pipeline.settingsTemplate stack).keys) : Accepted stack.settingKeys.keys key := by
  simp only [Pipeline.settingsTemplate, Dict.keys_map, NameSet.mem_keys_ofList,
    List.mem_append] at h
  rcases h with hgeneral | hstack
  · exact .inl hgeneral
  · exact .inr ⟨hkeys key hstack, hstack⟩

end SettingKey

namespace Invocation

variable {i : Invocation} {run : RunConfiguration} {c : PipelineConfiguration} {stack : Stack}
  {materializers : Materializers} {stackKeys : List String} {step step' : DeploymentStep}

/-- An invocation stays valid with the template, which names only what the step declares. -/
theorem Valid.template (h : i.Valid materializers stack.settingKeys.keys ∅)
    (hkeys : ∀ key ∈ (Pipeline.settingsTemplate stack).keys,
      SettingKey.Accepted stack.settingKeys.keys key)
    (hoverride : run.override i.id = i.templateLayer stack) :
    i.Valid materializers stack.settingKeys.keys run := by
  have hlayers : ∀ l ∈ i.givenLayers run, l = i.templateLayer stack ∨ l ∈ i.givenLayers ∅ := by
    simp only [givenLayers, hoverride]
    grind
  have hkept : ∀ l ∈ i.givenLayers ∅, l = ∅ ∨ l ∈ i.givenLayers run := by
    have hnone : (∅ : RunConfiguration).override i.id = ∅ := rfl
    simp only [givenLayers, hnone]
    grind
  have htemplate : i.templateLayer stack ∈ i.givenLayers run := by simp [givenLayers, hoverride]
  refine ⟨?_, ?_, ?_, ?_, ?_⟩
  · intro l hl key hkey
    rcases hlayers l hl with rfl | hl
    · exact hkeys key hkey
    · exact h.settings l hl key hkey
  · rintro name (⟨l, hl, hname⟩ | hname)
    · rcases hlayers l hl with rfl | hl
      · simpa [templateLayer] using hname
      · exact h.declaredParameters name (.inl ⟨l, hl, hname⟩)
    · exact h.declaredParameters name (.inr hname)
  · intro name hname
    refine .inl ⟨_, htemplate, ?_⟩
    simpa [templateLayer] using Dict.mem_keys_iff.2 ⟨none, hname⟩
  · intro l hl output houtput
    rcases hlayers l hl with rfl | hl
    · simpa [templateLayer] using houtput
    · exact h.declaredOutputs l hl output houtput
  · intro output typeName houtput
    refine (h.materializers output typeName houtput).imp_left ?_
    rintro ⟨l, hl, hmaterializer⟩
    rcases hkept l hl with rfl | hl
    · cases hmaterializer
    · exact ⟨l, hl, hmaterializer⟩

/-- Resolved outputs depend on the materializers of the layers only. -/
theorem eq_of_resolveOutputs {pipeline : String} {l l' : StepLayer}
    {outputs outputs' : Dict OutputConfiguration}
    (hsame : ∀ output, l.materializer? output = l'.materializer? output)
    (h : i.resolveOutputs pipeline materializers l.outputs = .ok outputs)
    (h' : i.resolveOutputs pipeline materializers l'.outputs = .ok outputs') :
    outputs' = outputs := by
  have hresolve : i.resolveOutput pipeline materializers l.outputs
      = i.resolveOutput pipeline materializers l'.outputs := by
    funext output typeName
    have houtput := hsame output
    simp only [StepLayer.materializer?] at houtput
    rw [resolveOutput, houtput, resolveOutput]
  rw [resolveOutputs] at h h'
  split at h
  · cases h
  · split at h'
    · cases h'
    · rw [hresolve] at h
      exact Except.ok.inj (h'.symm.trans h)

/-- With the template, and other settings of the pipeline, a step gets the same configuration apart
from settings and parameters. -/
theorem agrees_of_compile {settings : Dict Json}
    (h : i.compile c none materializers stackKeys = .ok step)
    (h' : i.compile { c with settings } (some (i.templateLayer stack)) materializers stackKeys
      = .ok step') : step.Agrees step' := by
  obtain ⟨-, parameters, outputs, -, houtputs, rfl⟩ := compile_eq_ok_iff.1 h
  obtain ⟨-, parameters', outputs', -, houtputs', rfl⟩ := compile_eq_ok_iff.1 h'
  have htemplate (output : String) : (i.templateLayer stack).materializer? output = none := by
    simp only [StepLayer.materializer?, templateLayer, Dict.get?_map]
    cases i.step.signature.outputs.get? output <;> rfl
  have hmaterializers (output : String) : (i.layers c none).materializer? output
      = (i.layers { c with settings } (some (i.templateLayer stack))).materializer? output := by
    change (((i.step.defaults.layered c.stepLayer).layered i.configuration).materializer? output)
      = ((((i.step.defaults.layered { c with settings }.stepLayer).layered
        (i.templateLayer stack)).layered i.configuration).materializer? output)
    simp only [StepLayer.materializer?_layered, htemplate, overridden_none]
    rfl
  exact {
    spec := rfl
    name := rfl
    toggles := rfl
    hooks := rfl
    experimentTracker := rfl
    stepOperator := rfl
    extra := rfl
    outputs := eq_of_resolveOutputs hmaterializers houtputs houtputs'
    externalInputs := rfl }

end Invocation

namespace Pipeline

variable {p : Pipeline} {stack : Stack} {materializers : Materializers} {i : Invocation}

theorem get?_steps_templateRun (hids : (p.invocations.map (·.id)).Nodup) (hi : i ∈ p.invocations) :
    (p.templateRun stack).steps.get? i.id = some (i.templateLayer stack) := by
  rw [templateRun, Dict.get?_ofList_eq_some_iff (by simpa [Function.comp_def] using hids)]
  exact List.mem_map.2 ⟨i, hi, rfl⟩

theorem configurationFor_templateRun : p.configurationFor (p.templateRun stack)
    = { p.configuration with
        settings := p.configuration.settings.merge (settingsTemplate stack) } := by
  simp only [configurationFor, PipelineConfiguration.updated, RunConfiguration.pipelineLayer,
    PipelineConfiguration.updatedTable_merge]
  rfl

theorem Acceptable.template (h : p.Acceptable materializers stack ∅)
    (hids : (p.invocations.map (·.id)).Nodup)
    (hkeys : ∀ key ∈ stack.settingKeys.keys, ∃ componentType flavor,
      SettingKey.Addresses key componentType flavor) :
    p.Acceptable materializers stack (p.templateRun stack) := by
  have hsettings : ∀ key ∈ (settingsTemplate stack).keys,
      SettingKey.Accepted stack.settingKeys.keys key :=
    fun key => SettingKey.accepted_of_mem_template hkeys
  refine ⟨h.settings, hsettings, ?_, nofun, ?_⟩
  · intro id hid
    simpa [templateRun, Function.comp_def] using hid
  · intro i hi
    refine (h.invocations i hi).template hsettings ?_
    rw [RunConfiguration.override, get?_steps_templateRun hids hi, Option.getD_some]

/-- What compiles without a run configuration compiles with the template, to the same spec and to a
deployment that agrees. -/
theorem exists_compileWith_templateRun {g : Graph} {d : Deployment} {spec : Spec}
    (hgraph : p.graph = some g) (hg : g.Coherent)
    (hkeys : ∀ key ∈ stack.settingKeys.keys, ∃ componentType flavor,
      SettingKey.Addresses key componentType flavor)
    (h : p.compileWith materializers stack ∅ = .ok (d, spec)) :
    ∃ d', p.compileWith materializers stack (p.templateRun stack) = .ok (d', spec)
      ∧ d.Agrees d' := by
  have hinvocations : p.invocations = g.invocations.toList := by rw [invocations, hgraph]
  have hids : (p.invocations.map (·.id)).Nodup := by
    rw [hinvocations]
    exact hg.nodup
  have hacceptable := (exists_compileWith_iff_of_graph hgraph hg).1 ⟨d, spec, h⟩
  obtain ⟨d', spec', h'⟩ := (exists_compileWith_iff_of_graph hgraph hg).2
    (hacceptable.template hids hkeys)
  obtain ⟨g₁, steps, hcompiles, houtcome⟩ := compileWith_eq_ok_iff.1 h
  obtain ⟨g₂, steps', hcompiles', houtcome'⟩ := compileWith_eq_ok_iff.1 h'
  cases hgraph.symm.trans hcompiles.graph
  cases hgraph.symm.trans hcompiles'.graph
  have hspecs : steps'.map (·.spec) = steps.map (·.spec) :=
    hcompiles'.spec_eq.trans hcompiles.spec_eq.symm
  cases houtcome
  cases houtcome'
  rw [hspecs] at h'
  refine ⟨_, h', ?_, ?_, rfl⟩
  · simp only [configurationFor_templateRun]
    rfl
  · refine forall₂_of_common hcompiles.steps hcompiles'.steps ?_
    intro i hi step step' hstep hstep'
    rw [configurationFor_templateRun, get?_steps_templateRun hids (hinvocations ▸ hi)] at hstep'
    exact Invocation.agrees_of_compile hstep hstep'

end Pipeline

/-- Whether the graph of a pipeline, if it has one, comes from a preparation, whatever was
configured since. -/
def Pipeline.Made (p : Pipeline) : Prop :=
  ∀ g, p.graph = some g → ∃ (σ : Type) (w : Workflow σ) (arguments : Dict Json) (p₀ p₁ : Pipeline)
    (s₀ s₁ : Session σ), w.prepare arguments p₀ s₀ = (.ok (), p₁, s₁) ∧ p₁.graph = some g

namespace Workflow

variable {σ : Type} {w : Workflow σ} {p q : Pipeline} {s s' : Session σ} {stack : Stack}

theorem exists_coherent_graph_of_made (hp : p.Made)
    (h : w.prepareIfPossible p s = (.ok (), q, s')) : ∃ g, q.graph = some g ∧ g.Coherent := by
  rw [prepareIfPossible] at h
  split at h
  · rename_i hprepared
    cases h
    obtain ⟨g, hg⟩ := Option.isSome_iff_exists.1 hprepared
    obtain ⟨τ, w₀, arguments, p₀, p₁, s₀, s₁, hprepare, hg₁⟩ := hp g hg
    obtain ⟨g₁, hg₁', hcoherent⟩ := exists_coherent_graph hprepare
    cases hg₁.symm.trans hg₁'
    exact ⟨g, hg, hcoherent⟩
  · split at h
    · cases h
    · exact exists_coherent_graph h

/-- The template of a pipeline that can be prepared reads as a run configuration. If the pipeline
compiles without one, it compiles with the template, to the same spec and to a deployment that
differs in nothing but settings and the values of parameters. -/
theorem exists_template (hp : p.Made) (h : w.prepareIfPossible p s = (.ok (), q, s'))
    (hkeys : ∀ key ∈ stack.settingKeys.keys, ∃ componentType flavor,
      SettingKey.Addresses key componentType flavor) :
    ∃ template run, w.template stack p s = (.ok template, q, s')
      ∧ RunConfiguration.read? template = some run
      ∧ ∀ materializers d spec, q.compileWith materializers stack ∅ = .ok (d, spec) →
        ∃ d', q.compileWith materializers stack run = .ok (d', spec) ∧ d.Agrees d' := by
  obtain ⟨g, hgraph, hg⟩ := exists_coherent_graph_of_made hp h
  refine ⟨q.template stack, q.templateRun stack, ?_, (q.readAs_template stack).reads, ?_⟩
  · simp only [template, bind, h]
    rfl
  · intro materializers d spec hcompile
    exact Pipeline.exists_compileWith_templateRun hgraph hg hkeys hcompile

end Workflow

namespace Sample

/-- The sample pipeline compiles with its own template. -/
theorem exists_template_training :
    training.Made
    ∧ (⟨training, entry⟩ : Workflow Unit).prepareIfPossible training
        { world := .initial, memory := () } = (.ok (), prepared, preparedSession)
    ∧ (∀ key ∈ (Stack.recording (.ofNat 1)).settingKeys.keys, ∃ componentType flavor,
        SettingKey.Addresses key componentType flavor)
    ∧ ∃ run d, RunConfiguration.read? (prepared.template (.recording (.ofNat 1))) = some run
        ∧ prepared.compileWith .standard (.recording (.ofNat 1)) run = .ok (d, compiled.2)
        ∧ compiled.1.Agrees d := by
  have hmade : training.Made := nofun
  have hprepare : (⟨training, entry⟩ : Workflow Unit).prepareIfPossible training
      { world := .initial, memory := () } = (.ok (), prepared, preparedSession) := prepare_training
  have hkeys : ∀ key ∈ (Stack.recording (.ofNat 1)).settingKeys.keys, ∃ componentType flavor,
      SettingKey.Addresses key componentType flavor := by
    simp only [← SettingKey.isSome_split?_iff]
    decide
  obtain ⟨_, run, htemplate, hread, hcompile⟩ := Workflow.exists_template hmade hprepare hkeys
  simp only [Workflow.template, bind, hprepare] at htemplate
  cases htemplate
  obtain ⟨d, hd, hagrees⟩ := hcompile .standard compiled.1 compiled.2 rfl
  exact ⟨hmade, hprepare, hkeys, run, d, hread, hd, hagrees⟩

end Sample

end Pipework
