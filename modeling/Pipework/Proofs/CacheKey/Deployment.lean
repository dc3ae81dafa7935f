import Pipework.Proofs.CacheKey.Computation
import Pipework.Proofs.Dict.Keys
import Pipework.Proofs.Traversal

/-!
# Cache keys of deployments

Where every step of a deployment has a source text, the deployment gives an engine with the inputs
of its steps. If the dependencies of the steps go down in some rank and do not leave the deployment,
the engine gives the key of every step and no others (`Engine.Reachable.allKeys_ok`).
-/

namespace Pipework.CacheKey

variable {steps : Dict Inputs}

/-- Steps that only depend on steps of lower rank do not depend on themselves. -/
theorem acyclic_of_rank (rank : String → Nat)
    (h : ∀ a b, DependsOn steps a b → rank b < rank a) : Acyclic steps := by
  intro a hcycle
  have hlt : ∀ b, Relation.TransGen (DependsOn steps) a b → rank b < rank a := by
    intro b hb
    induction hb with
    | single hab => exact h _ _ hab
    | tail _ hbc ih => exact (h _ _ hbc).trans ih
  exact Nat.lt_irrefl _ (hlt a hcycle)

namespace Engine

/-- An engine without cycles and unknown dependencies gives the keys of all its steps. -/
theorem Reachable.allKeys_ok {e : Engine} (h : e.Reachable) (acyclic : Acyclic e.steps)
    (closed : Closed e.steps) :
    ∃ keys, e.allKeys.1 = .ok keys ∧ keys.keys = e.steps.keys
      ∧ ∀ id k, keys.get? id = some k → IsKeyOf e.steps id k := by
  have hok : (each (compute e.pipeline e.steps e.steps.size []) e.steps.keys e.keys).1
      = .ok () := by
    refine each_ok (fun id hid keys => ?_) e.keys
    obtain ⟨i, hi⟩ := Dict.mem_keys_iff.1 hid
    exact compute_ok e.pipeline acyclic closed hi ⟨.nil, nofun, nofun⟩ (Nat.le_refl _) keys
  obtain ⟨hgrows, hget⟩ :=
    (compute_remembers e.pipeline e.steps.size []).each e.steps.keys h.sound
  rw [Engine.allKeys]
  split
  · rename_i keys heq
    rw [heq] at hgrows hget
    refine ⟨_, rfl, e.steps.keys_mapWithKey _, fun id k hk => ?_⟩
    obtain ⟨i, hi, rfl⟩ := Dict.get?_mapWithKey_eq_some_iff.1 hk
    obtain ⟨k, hk⟩ := hget rfl id (mem_keys_of_get? hi)
    rw [hk]
    exact hgrows.sound id k hk
  · rename_i heq
    rw [heq] at hok
    cases hok

/-- The inputs of a step under its id, given the source texts. -/
def entryOf (text : String → String) (step : DeploymentStep) : String × Inputs :=
  (step.config.name, inputsOf step (text step.config.name))

/-- The inputs of all steps of a deployment. -/
def deploymentInputs (d : Deployment) (text : String → String) : Dict Inputs :=
  .ofList (d.steps.map (entryOf text))

variable {d : Deployment} {text : String → String}

theorem mem_keys_deploymentInputs {id : String} :
    id ∈ (deploymentInputs d text).keys ↔ id ∈ d.steps.map (·.config.name) := by
  have hempty : id ∉ (Dict.empty : Dict Inputs).keys := List.not_mem_nil
  simp [deploymentInputs, Dict.ofList, hempty, entryOf]

theorem exists_step_of_get? {id : String} {i : Inputs}
    (h : (deploymentInputs d text).get? id = some i) :
    ∃ step ∈ d.steps, step.config.name = id ∧ i = inputsOf step (text id) := by
  rcases Dict.mem_of_get?_insertMany h with h | h
  · cases h
  · obtain ⟨step, hstep, heq⟩ := List.mem_map.1 h
    cases heq
    exact ⟨step, hstep, rfl, rfl⟩

/-- What the inputs of a step depend on is what its place in the pipeline says. -/
theorem mem_dependencies_inputsOf {step : DeploymentStep} {source : String} {id : String} :
    id ∈ (inputsOf step source).dependencies
      ↔ id ∈ step.spec.predecessors ∨ ∃ input ∈ step.spec.inputs.values, input.producer = id := by
  simp [inputsOf, Inputs.dependencies]

theorem foldlM_insert {f : Engine → DeploymentStep → Except Error Engine}
    {l : List DeploymentStep} {e : Engine} (h : e.Reachable)
    (hf : ∀ step ∈ l, ∀ e, f e step = .ok (e.insert (entryOf text step).1 (entryOf text step).2)) :
    ∃ e', l.foldlM f e = .ok e' ∧ e'.Reachable
      ∧ e'.steps = e.steps.insertMany (l.map (entryOf text)) := by
  induction l generalizing e with
  | nil => exact ⟨e, rfl, h, rfl⟩
  | cons step l ih =>
    have hinsert := h.insert (entryOf text step).1 (entryOf text step).2
    obtain ⟨e', hfold, hreachable, hsteps⟩ :=
      ih hinsert fun later hlater => hf later (List.mem_cons_of_mem _ hlater)
    refine ⟨e', ?_, hreachable, hsteps⟩
    rw [List.foldlM_cons, hf step List.mem_cons_self]
    exact hfold

/-- A deployment whose steps all have a source text gives an engine with their inputs. -/
theorem exists_ofDeployment {source? : String → Option String}
    (h : ∀ step ∈ d.steps, source? step.config.name = some (text step.config.name)) :
    ∃ e, ofDeployment d source? = .ok e ∧ e.Reachable ∧ e.steps = deploymentInputs d text := by
  refine foldlM_insert (.new d.configuration.name) fun step hstep e => ?_
  simp only [h step hstep]
  rfl

theorem mem_keys_foldlM {f : Engine → DeploymentStep → Except Error Engine}
    (hf : ∀ e step e', f e step = .ok e' → ∃ inputs, e' = e.insert step.config.name inputs)
    {l : List DeploymentStep} {e e' : Engine} {id : String} (h : l.foldlM f e = .ok e') :
    id ∈ e'.steps.keys ↔ id ∈ l.map (·.config.name) ∨ id ∈ e.steps.keys := by
  induction l generalizing e with
  | nil =>
    cases h
    simp
  | cons step l ih =>
    rw [List.foldlM_cons, bind_eq_ok_iff] at h
    obtain ⟨_, hstep, hrest⟩ := h
    obtain ⟨inputs, rfl⟩ := hf _ _ _ hstep
    rw [ih hrest, insert, Dict.mem_keys_insert, List.map_cons, List.mem_cons, or_assoc,
      or_left_comm]

/-- An engine that was made from a deployment knows its steps and no others. -/
theorem mem_keys_ofDeployment {source? : String → Option String} {e : Engine} {id : String}
    (h : ofDeployment d source? = .ok e) :
    id ∈ e.steps.keys ↔ id ∈ d.steps.map (·.config.name) := by
  have hempty : id ∉ (Dict.empty : Dict Inputs).keys := List.not_mem_nil
  rw [mem_keys_foldlM (fun e step e' hstep => ?_) h]
  · exact or_iff_left hempty
  · split at hstep <;> cases hstep
    exact ⟨_, rfl⟩

/-- The keys of all steps of an engine are keys of its steps and no others. -/
theorem keys_of_allKeys {e : Engine} {keys : Keys} (h : e.allKeys.1 = .ok keys) :
    keys.keys = e.steps.keys := by
  rw [allKeys] at h
  split at h
  · cases h
    exact e.steps.keys_mapWithKey _
  · cases h

end Engine

end Pipework.CacheKey
