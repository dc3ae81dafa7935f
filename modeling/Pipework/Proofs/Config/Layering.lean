import Pipework.Pipeline.Basic
import Pipework.Proofs.Config.Names
import Pipework.Proofs.Json.Merge

/-!
# Layers in any grouping

Configurations of runs can be layered in either grouping if their tables are aligned, which is the
one thing that merging asks for (`RunConfiguration.layered_assoc`). Switches, names, schedules and
outputs never stand in the way: of these the highest layer wins that sets one. So options that are
layered on a pipeline may as well be put on top when its file has been read
(`RunConfiguration.layered_in_any_order`).
-/

namespace Pipework

theorem overridden_assoc {α : Type} (a b c : Option α) :
    overridden (overridden a b) c = overridden a (overridden b c) := (Option.or_assoc).symm

theorem Toggles.override_assoc (a b c : Toggles) :
    (a.override b).override c = a.override (b.override c) := by
  simp only [override, overridden_assoc]

theorem HookSources.override_assoc (a b c : HookSources) :
    (a.override b).override c = a.override (b.override c) := by
  simp only [override, overridden_assoc]

@[simp] theorem OutputLayer.empty_override (o : OutputLayer) : ({} : OutputLayer).override o = o :=
  congrArg OutputLayer.mk (Option.or_none ..)

theorem OutputLayer.override_assoc (a b c : OutputLayer) :
    (a.override b).override c = a.override (b.override c) := by
  simp only [override, overridden_assoc]

namespace StepLayer

variable {a b c : StepLayer}

/-- The tables of three layers are aligned. -/
structure Aligned (a b c : StepLayer) : Prop where
  parameters : a.parameters.Aligned b.parameters c.parameters
  settings : a.settings.Aligned b.settings c.settings
  extra : a.extra.Aligned b.extra c.extra

instance (a b c : StepLayer) : Decidable (a.Aligned b c) :=
  decidable_of_iff (a.parameters.Aligned b.parameters c.parameters
      ∧ a.settings.Aligned b.settings c.settings ∧ a.extra.Aligned b.extra c.extra)
    ⟨fun h => ⟨h.1, h.2.1, h.2.2⟩, fun h => ⟨h.parameters, h.settings, h.extra⟩⟩

/-- A layer that says nothing does not stand in the way. -/
theorem aligned_empty (a c : StepLayer) : a.Aligned ∅ c :=
  ⟨Dict.aligned_empty _ _, Dict.aligned_empty _ _, Dict.aligned_empty _ _⟩

theorem outputs_layered_assoc (a b c : StepLayer) :
    ((a.layered b).layered c).outputs = (a.layered (b.layered c)).outputs := by
  refine Dict.ext_get? fun output => ?_
  simp only [get?_outputs_layered]
  cases c.outputs.get? output with
  | none => simp
  | some z =>
    cases b.outputs.get? output with
    | none => simp
    | some y => simp [OutputLayer.override_assoc]

theorem layered_assoc (h : Aligned a b c) : (a.layered b).layered c = a.layered (b.layered c) := by
  have houtputs := outputs_layered_assoc a b c
  simp only [layered, apply, LayerMode.applyUnlessEmpty_merge] at houtputs ⊢
  simp only [mk.injEq, Toggles.override_assoc, HookSources.override_assoc, overridden_assoc,
    houtputs, true_and, and_true]
  exact ⟨Dict.merge_assoc h.parameters, Dict.merge_assoc h.settings, Dict.merge_assoc h.extra⟩

end StepLayer

namespace RunConfiguration

variable {a b c : RunConfiguration}

/-- The tables of three configurations are aligned, also those of the overrides of each step. -/
structure Aligned (a b c : RunConfiguration) : Prop where
  settings : a.settings.Aligned b.settings c.settings
  extra : a.extra.Aligned b.extra c.extra
  steps : ∀ id, (a.override id).Aligned (b.override id) (c.override id)

theorem override_of_notMem {r : RunConfiguration} {id : String} (h : id ∉ r.steps.keys) :
    r.override id = ∅ := by
  rw [override, Option.eq_none_iff_forall_ne_some.2 fun l hl => h (Dict.mem_keys_iff.2 ⟨l, hl⟩)]
  rfl

/-- What holds of the layer that says nothing is to be checked for the steps that have one only. -/
theorem forall_override_iff {r : RunConfiguration} {P : String → StepLayer → Prop}
    (hempty : ∀ id, P id ∅) :
    (∀ id ∈ r.steps.keys, P id (r.override id)) ↔ ∀ id, P id (r.override id) := by
  constructor
  · intro h id
    by_cases hid : id ∈ r.steps.keys
    · exact h id hid
    · rw [override_of_notMem hid]
      exact hempty id
  · exact fun h id _ => h id

instance (a b c : RunConfiguration) : Decidable (a.Aligned b c) :=
  have hsteps := @forall_override_iff b (fun id l => (a.override id).Aligned l (c.override id))
    fun _ => StepLayer.aligned_empty _ _
  decidable_of_iff (a.settings.Aligned b.settings c.settings
      ∧ a.extra.Aligned b.extra c.extra
      ∧ ∀ id ∈ b.steps.keys, (a.override id).Aligned (b.override id) (c.override id))
    ⟨fun h => ⟨h.1, h.2.1, hsteps.1 h.2.2⟩, fun h => ⟨h.settings, h.extra, hsteps.2 h.steps⟩⟩

theorem get?_steps_layered (a b : RunConfiguration) (id : String) :
    (a.layered b).steps.get? id
      = ((b.steps.get? id).map fun l => (a.override id).layered l).or (a.steps.get? id) :=
  get?_layeredSteps id a.steps b.steps

theorem steps_layered_assoc (h : a.Aligned b c) :
    ((a.layered b).layered c).steps = (a.layered (b.layered c)).steps := by
  refine Dict.ext_get? fun id => ?_
  have hassoc := StepLayer.layered_assoc (h.steps id)
  simp only [get?_steps_layered, override_layered]
  cases hz : c.steps.get? id with
  | none => simp
  | some z =>
    have hz : c.override id = z := by rw [override, hz, Option.getD_some]
    rw [hz] at hassoc
    simp [hassoc]

theorem layered_assoc (h : a.Aligned b c) : (a.layered b).layered c = a.layered (b.layered c) := by
  have hsteps := steps_layered_assoc h
  have hsettings := Dict.merge_assoc h.settings
  have hextra := Dict.merge_assoc h.extra
  simp only [layered] at hsteps ⊢
  simp only [overridden_assoc, Toggles.override_assoc, hsteps, hsettings, hextra]

/-- Three configurations can be layered in either grouping if they are aligned. So it does not
matter whether options are layered on those of a pipeline before or after the file of the run is put
underneath. -/
theorem layered_in_any_order (h : a.Aligned b c) :
    (a.layered b).layered c = a.layered (b.layered c)
    ∧ ∀ (p : Pipeline) (options : RunOptions), p.options.run = b → options.run = c →
        ofFile? (p.withOptions options).options.file = .ok a →
        (p.withOptions options).options.load
          = (load (p.withOptions options).options.file p.options.run).map
              (·.layered options.run) := by
  refine ⟨layered_assoc h, ?_⟩
  rintro p options rfl rfl hfile
  have hbefore : (p.withOptions options).options.load
      = .ok (a.layered (p.options.run.layered options.run)) :=
    (load_eq_ok_iff _).2 ⟨a, hfile, rfl⟩
  have hafter : load (p.withOptions options).options.file p.options.run
      = .ok (a.layered p.options.run) := (load_eq_ok_iff _).2 ⟨a, hfile, rfl⟩
  rw [hbefore, hafter, ← layered_assoc h]
  rfl

/-- What stands in the middle hides what is below it, and what it hides comes back if it is replaced
first. -/
example :
    let a : RunConfiguration := { extra := .ofList [("team", .object [("lead", .str "ada")])] }
    let b : RunConfiguration := { extra := .ofList [("team", .null)] }
    let c : RunConfiguration := { extra := .ofList [("team", .object [("size", .ofNat 2)])] }
    ¬ a.Aligned b c ∧ (a.layered b).layered c ≠ a.layered (b.layered c) := by
  decide +kernel

end RunConfiguration

namespace Sample

/-- What is set in code for one more run. -/
def retrained : RunConfiguration :=
  { extra := .ofList [("owner", .object [("name", .str "ada")])]
    steps := .ofList [("trainer", { parameters := .ofList [("epochs", .ofNat 3)] })] }

def configured : Pipeline := { training with options := { file := some runFile, run := inCode } }

/-- The owner is not an object below, so that it does not matter when it is replaced. -/
theorem layered_in_any_order_retrained :
    fromRunFile.Aligned inCode retrained
    ∧ (fromRunFile.layered inCode).layered retrained
      = fromRunFile.layered (inCode.layered retrained)
    ∧ (configured.withOptions { run := retrained }).options.load
      = (RunConfiguration.load (some runFile) inCode).map (·.layered retrained) := by
  have haligned : fromRunFile.Aligned inCode retrained := by decide +kernel
  obtain ⟨hassoc, hload⟩ := RunConfiguration.layered_in_any_order haligned
  exact ⟨haligned, hassoc, hload configured { run := retrained } rfl rfl ofFile_runFile⟩

end Sample

end Pipework
