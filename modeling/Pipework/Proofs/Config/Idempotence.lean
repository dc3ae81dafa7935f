import Pipework.Proofs.Config.Layering

/-!
# Layers put on again

A layer that is on top already changes nothing when it is put on once more, whether tables are
merged or replaced, and a layer that says nothing changes nothing on either side
(`layered_again_and_empty`). Each part of a configuration has its own reason: of scalars the later
one wins, tables that are replaced are what the layer says, and a table that is merged into itself
stays as it is.
-/

namespace Pipework

theorem overridden_again {α : Type} (base update : Option α) :
    overridden (overridden base update) update = overridden base update := by
  cases update <;> rfl

@[simp] theorem none_overridden {α : Type} (update : Option α) : overridden none update = update :=
  Option.or_none

theorem Toggles.override_again (base update : Toggles) :
    (base.override update).override update = base.override update := by
  simp only [override, overridden_again]

theorem HookSources.override_again (base update : HookSources) :
    (base.override update).override update = base.override update := by
  simp only [override, overridden_again]

theorem OutputLayer.override_again (base update : OutputLayer) :
    (base.override update).override update = base.override update := by
  simp only [override, overridden_again]

@[simp] theorem Toggles.empty_override (t : Toggles) : ({} : Toggles).override t = t := by
  simp only [override, none_overridden]

@[simp] theorem HookSources.empty_override (h : HookSources) :
    ({} : HookSources).override h = h := by
  simp only [override, none_overridden]

/-- A table merged into an empty one. -/
@[simp] theorem Dict.empty_merge (d : Dict Json) : empty.merge d = d := by
  apply ext_get?
  intro k
  rw [get?_merge]
  cases d.get? k <;> rfl

/-! ## Tables -/

namespace LayerMode

variable {base update : Dict Json} (mode : LayerMode)

theorem apply_again : mode.apply (mode.apply base update) update = mode.apply base update := by
  cases mode with
  | merge => exact base.merge_again update
  | replace => rfl

theorem applyUnlessEmpty_again :
    mode.applyUnlessEmpty (mode.applyUnlessEmpty base update) update
      = mode.applyUnlessEmpty base update := by
  unfold applyUnlessEmpty
  split
  · rfl
  · exact mode.apply_again

end LayerMode

/-! ## Layers of steps -/

namespace StepLayer

/-- An output that is new begins as one that nothing is said of, so it makes no difference whether
the layer finds it there. -/
theorem outputs_apply_again (s u : StepLayer) (mode : LayerMode) :
    ((s.apply u mode).apply u mode).outputs = (s.apply u mode).outputs := by
  cases mode with
  | merge =>
    change ((s.layered u).layered u).outputs = (s.layered u).outputs
    apply Dict.ext_get?
    intro output
    simp only [get?_outputs_layered]
    cases u.outputs.get? output with
    | none => simp
    | some o => simp [OutputLayer.override_again]
  | replace =>
    simp only [apply, applyOutputs]
    split <;> rfl

theorem apply_again (s u : StepLayer) (mode : LayerMode) :
    (s.apply u mode).apply u mode = s.apply u mode := by
  have houtputs := outputs_apply_again s u mode
  simp only [apply] at houtputs ⊢
  simp only [mk.injEq, Toggles.override_again, HookSources.override_again, overridden_again,
    houtputs, true_and, and_true]
  exact ⟨mode.applyUnlessEmpty_again, mode.applyUnlessEmpty_again, mode.applyUnlessEmpty_again⟩

theorem outputs_empty_layered (l : StepLayer) :
    ((∅ : StepLayer).layered l).outputs = l.outputs := by
  have hempty (output : String) : (∅ : StepLayer).outputs.get? output = none := rfl
  apply Dict.ext_get?
  intro output
  rw [get?_outputs_layered, hempty]
  cases l.outputs.get? output <;> simp

@[simp] theorem empty_layered (l : StepLayer) : (∅ : StepLayer).layered l = l := by
  have houtputs := outputs_empty_layered l
  have htable (d : Dict Json) : LayerMode.merge.applyUnlessEmpty .empty d = d := by
    rw [LayerMode.applyUnlessEmpty_merge, Dict.empty_merge]
  cases l
  simp only [layered, apply, mk.injEq] at houtputs ⊢
  exact ⟨Toggles.empty_override _, none_overridden _, none_overridden _, htable _, htable _,
    htable _, HookSources.empty_override _, houtputs⟩

end StepLayer

/-! ## Configurations of pipelines -/

namespace PipelineConfiguration

theorem updatedTable_again {base : Dict Json} {update : Option (Dict Json)} (mode : LayerMode) :
    updatedTable mode (updatedTable mode base update) update = updatedTable mode base update := by
  cases update with
  | none => rfl
  | some table => exact mode.apply_again

theorem updated_again (c : PipelineConfiguration) (u : PipelineLayer) (mode : LayerMode) :
    (c.updated u mode).updated u mode = c.updated u mode := by
  simp only [updated, Toggles.override_again, HookSources.override_again, updatedTable_again]

end PipelineConfiguration

/-! ## Configurations of runs -/

namespace RunConfiguration

theorem steps_layered_again (r u : RunConfiguration) :
    ((r.layered u).layered u).steps = (r.layered u).steps := by
  apply Dict.ext_get?
  intro id
  have hstep := StepLayer.apply_again (r.override id) (u.override id) .merge
  simp only [get?_steps_layered, override_layered]
  cases hl : u.steps.get? id with
  | none => simp
  | some l =>
    have hoverride : u.override id = l := by rw [override, hl, Option.getD_some]
    rw [hoverride] at hstep ⊢
    exact congrArg some hstep

theorem layered_again (r u : RunConfiguration) : (r.layered u).layered u = r.layered u := by
  have hsteps := steps_layered_again r u
  simp only [layered] at hsteps ⊢
  simp only [overridden_again, Toggles.override_again, hsteps, Dict.merge_again]

@[simp] theorem layered_empty (r : RunConfiguration) : r.layered ∅ = r := rfl

theorem steps_empty_layered (r : RunConfiguration) :
    ((∅ : RunConfiguration).layered r).steps = r.steps := by
  have hempty (id : String) : (∅ : RunConfiguration).steps.get? id = none := rfl
  apply Dict.ext_get?
  intro id
  rw [get?_steps_layered, override, hempty]
  cases r.steps.get? id <;> simp

@[simp] theorem empty_layered (r : RunConfiguration) : (∅ : RunConfiguration).layered r = r := by
  have hsteps := steps_empty_layered r
  cases r
  simp only [layered, mk.injEq] at hsteps ⊢
  exact ⟨none_overridden _, Toggles.empty_override _, none_overridden _, none_overridden _, hsteps,
    Dict.empty_merge _, Dict.empty_merge _⟩

end RunConfiguration

/-! ## All layers -/

/-- A layer that is put on a step, a pipeline or a run a second time changes nothing, whichever way
tables are treated, and merging with a layer that says nothing changes nothing either. -/
theorem layered_again_and_empty :
    (∀ (s u : StepLayer) (mode : LayerMode), (s.apply u mode).apply u mode = s.apply u mode)
    ∧ (∀ (c : PipelineConfiguration) (u : PipelineLayer) (mode : LayerMode),
      (c.updated u mode).updated u mode = c.updated u mode)
    ∧ (∀ r u : RunConfiguration, (r.layered u).layered u = r.layered u)
    ∧ (∀ l : StepLayer, l.layered ∅ = l ∧ (∅ : StepLayer).layered l = l)
    ∧ ∀ r : RunConfiguration, r.layered ∅ = r ∧ (∅ : RunConfiguration).layered r = r := by
  refine ⟨StepLayer.apply_again, PipelineConfiguration.updated_again,
    RunConfiguration.layered_again, ?_, ?_⟩
  · intro l
    exact ⟨StepLayer.layered_empty l, StepLayer.empty_layered l⟩
  · intro r
    exact ⟨RunConfiguration.layered_empty r, RunConfiguration.empty_layered r⟩

namespace Sample

/-- What a step needs by default. -/
def modest : StepLayer :=
  { settings := .ofList [("resources", .object [("cpu", .ofNat 1), ("memory", .str "1GB")])]
    outputs := .ofList [("model", ⟨some ⟨"stores", "Files", false⟩⟩)] }

/-- What is changed of it, with an output that nothing is said of. -/
def demanding : StepLayer :=
  { toggles := { cache := some false }
    settings := .ofList [("resources", .object [("cpu", .ofNat 4)])]
    outputs := .ofList [("metrics", {}), ("model", ⟨some ⟨"stores", "Objects", false⟩⟩)] }

/-- A pipeline with the settings of the modest step. -/
def modestPipeline : PipelineConfiguration := { name := "training", settings := modest.settings }

/-- What is changed of it, with a table that is set to nothing. -/
def demandingPipeline : PipelineLayer := { settings := demanding.settings, extra := some .empty }

/-- A run in which the trainer is modest. -/
def modestRun : RunConfiguration := { steps := .ofList [("trainer", modest)] }

/-- What is changed of it, for the trainer and for a step that is not mentioned. -/
def demandingRun : RunConfiguration :=
  { settings := demanding.settings
    steps := .ofList [("evaluator", demanding), ("trainer", demanding)] }

/-- The trainer keeps its memory where tables are merged and loses it where they are replaced, and
neither way does the layer change anything when it comes again. -/
theorem layered_again_and_empty_demanding :
    ((modest.apply demanding .merge).apply demanding .merge).settings
      = .ofList [("resources", .object [("cpu", .ofNat 4), ("memory", .str "1GB")])]
    ∧ ((modest.apply demanding .replace).apply demanding .replace).settings
      = .ofList [("resources", .object [("cpu", .ofNat 4)])]
    ∧ (modestPipeline.updated demandingPipeline .merge).updated demandingPipeline .merge
      = modestPipeline.updated demandingPipeline .merge
    ∧ (modestRun.layered demandingRun).layered demandingRun = modestRun.layered demandingRun := by
  obtain ⟨hsteps, hpipelines, hruns, -⟩ := layered_again_and_empty
  refine ⟨?_, ?_, hpipelines modestPipeline demandingPipeline .merge,
    hruns modestRun demandingRun⟩
  · rw [hsteps modest demanding .merge]
    decide +kernel
  · rw [hsteps modest demanding .replace]
    decide +kernel

end Sample

end Pipework
