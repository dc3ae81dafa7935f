import Pipework.Proofs.Config.Precedence

/-!
# Names in layers

Putting layers on top of each other neither hides nor invents a name: a setting, a parameter or an
output is named by the result exactly if one of the layers names it.
-/

namespace Pipework

namespace Dict

variable {k : String}

theorem get?_merge (base update : Dict Json) :
    (base.merge update).get? k = match update.get? k with
      | some v => some ((base.get? k).elim v (·.merge v))
      | none => base.get? k :=
  Entries.find?_mergeMembers

@[simp] theorem mem_keys_merge {base update : Dict Json} :
    k ∈ (base.merge update).keys ↔ k ∈ base.keys ∨ k ∈ update.keys := by
  simp only [← contains_iff, contains, get?_merge]
  cases update.get? k <;> simp

end Dict

theorem LayerMode.mem_keys_applyUnlessEmpty {base update : Dict Json} {k : String} :
    k ∈ (LayerMode.merge.applyUnlessEmpty base update).keys ↔ k ∈ base.keys ∨ k ∈ update.keys := by
  rw [LayerMode.applyUnlessEmpty_merge, Dict.mem_keys_merge]

namespace StepLayer

/-- The materializer that a layer sets for an output. -/
def materializer? (l : StepLayer) (output : String) : Option Source :=
  (l.outputs.get? output).bind (·.materializer)

variable {base update : StepLayer} {output : String}

theorem get?_outputs_layered : (base.layered update).outputs.get? output
    = ((update.outputs.get? output).map fun o =>
        ((base.outputs.get? output).getD {}).override o).or (base.outputs.get? output) := by
  change (applyOutputs .merge base.outputs update.outputs).get? output = _
  rw [applyOutputs]
  split
  · rename_i hempty
    have hnone : update.outputs.get? output = none := by
      rw [Dict.get?, List.isEmpty_iff.1 hempty, Entries.find?]
    simp [hnone]
  · exact Dict.get?_foldl_alter (fun o (old : Option OutputLayer) => (old.getD {}).override o)
      update.outputs.ascending base.outputs

theorem mem_keys_outputs_layered : output ∈ (base.layered update).outputs.keys ↔
    output ∈ base.outputs.keys ∨ output ∈ update.outputs.keys := by
  simp only [← Dict.contains_iff, Dict.contains, get?_outputs_layered]
  cases update.outputs.get? output <;> simp

theorem materializer?_layered : (base.layered update).materializer? output
    = overridden (base.materializer? output) (update.materializer? output) := by
  simp only [materializer?, get?_outputs_layered]
  cases update.outputs.get? output with
  | none => simp
  | some o => cases base.outputs.get? output <;> simp [OutputLayer.override, overridden]

theorem isSome_materializer?_layered : ((base.layered update).materializer? output).isSome ↔
    (base.materializer? output).isSome ∨ (update.materializer? output).isSome := by
  rw [materializer?_layered]
  cases update.materializer? output <;> simp

/-- What a layer names is what the layers name that it was put together from. -/
structure Collects (l : StepLayer) (layers : List StepLayer) : Prop where
  settings : ∀ key, key ∈ l.settings.keys ↔ ∃ layer ∈ layers, key ∈ layer.settings.keys
  parameters : ∀ name, name ∈ l.parameters.keys ↔ ∃ layer ∈ layers, name ∈ layer.parameters.keys
  outputs : ∀ output, output ∈ l.outputs.keys ↔ ∃ layer ∈ layers, output ∈ layer.outputs.keys
  materializers : ∀ output,
    (l.materializer? output).isSome ↔ ∃ layer ∈ layers, (layer.materializer? output).isSome

theorem Collects.single (l : StepLayer) : l.Collects [l] where
  settings := by simp
  parameters := by simp
  outputs := by simp
  materializers := by simp

theorem Collects.layered {lower upper : List StepLayer} (hbase : base.Collects lower)
    (hupdate : update.Collects upper) : (base.layered update).Collects (lower ++ upper) where
  settings key := by
    simp only [List.mem_append, or_and_right, exists_or, ← hbase.settings, ← hupdate.settings]
    exact LayerMode.mem_keys_applyUnlessEmpty
  parameters name := by
    simp only [List.mem_append, or_and_right, exists_or, ← hbase.parameters, ← hupdate.parameters]
    exact LayerMode.mem_keys_applyUnlessEmpty
  outputs output := by
    simp only [List.mem_append, or_and_right, exists_or, ← hbase.outputs, ← hupdate.outputs]
    exact mem_keys_outputs_layered
  materializers output := by
    simp only [List.mem_append, or_and_right, exists_or, ← hbase.materializers,
      ← hupdate.materializers]
    exact isSome_materializer?_layered

end StepLayer

end Pipework
