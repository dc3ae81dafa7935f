import Pipework.Proofs.Dict.Keys
import Pipework.Proofs.Graph.FreeId
import Std.Data.HashMap.Lemmas

/-!
# Coherent graphs

A graph is coherent if its index knows exactly the ids of its invocations and every invocation
depends on earlier ones of its own pass. A graph without invocations is coherent, and what a graph
accepts keeps it so (`Graph.Coherent.add`).
-/

namespace Pipework.Graph

variable {g g' : Graph} {slot : Slot} {r : InvocationRequest} {i : Invocation} {id : String}

/-- Whatever is accepted while the graph is built holds of all its invocations. -/
structure Coherent (g : Graph) : Prop where
  nodup : g.ids.Nodup
  /-- The index maps the ids of the invocations to their positions, and nothing else. -/
  index : ∀ (id : String) (n : Nat), g.index[id]? = some n ↔ g.ids[n]? = some id
  /-- An invocation depends on invocations before it. -/
  earlier : ∀ (n : Nat) (i : Invocation), g.invocations[n]? = some i →
    ∀ p ∈ i.predecessors.keys, ∃ m < n, g.ids[m]? = some p
  /-- An invocation depends on those that produce its inputs. -/
  producers : ∀ i ∈ g.invocations, ∀ a ∈ i.inputs.values, a.producer ∈ i.predecessors.keys
  /-- Inputs belong to the pass of the graph. -/
  native : ∀ i ∈ g.invocations, ∀ a ∈ i.inputs.values, a.pass = g.pass

@[simp] theorem ids_push : (g.push i).ids = g.ids ++ [i.id] := by
  simp [ids, push]

@[simp] theorem length_ids : g.ids.length = g.invocations.size := by
  simp [ids]

@[simp] theorem pipeline_push : (g.push i).pipeline = g.pipeline := rfl

@[simp] theorem pass_push : (g.push i).pass = g.pass := rfl

theorem getElem?_ids (g : Graph) (n : Nat) : g.ids[n]? = (g.invocations[n]?).map (·.id) := by
  simp [ids]

theorem getElem?_ids_push (g : Graph) (i : Invocation) (n : Nat) :
    (g.push i).ids[n]? = if n = g.invocations.size then some i.id else g.ids[n]? := by
  simp only [getElem?_ids, Graph.push, Array.getElem?_push]
  split <;> rfl

theorem Coherent.new (pipeline : String) (pass : Uuid) (detached : Bool) :
    Coherent { pipeline, pass, detached } where
  nodup := List.nodup_nil
  index := by simp [ids]
  earlier := by simp
  producers := by simp
  native := by simp

namespace Coherent

variable (h : g.Coherent)
include h

theorem contains_iff : g.contains id = true ↔ id ∈ g.ids := by
  rw [contains, Std.HashMap.contains_eq_isSome_getElem?, Option.isSome_iff_exists]
  simp only [h.index]
  exact List.mem_iff_getElem?.symm

/-- Looking up an id gives the invocation that has it. -/
theorem get?_eq_some_iff : g.get? id = some i ↔ i ∈ g.invocations ∧ i.id = id := by
  have hposition (n : Nat) :
      g.index[id]? = some n ↔ ∃ j, g.invocations[n]? = some j ∧ j.id = id := by
    rw [h.index, getElem?_ids, Option.map_eq_some_iff]
  constructor
  · intro hget
    rw [get?] at hget
    split at hget
    · rename_i n hn
      obtain ⟨j, hj, hid⟩ := (hposition n).1 hn
      cases hj.symm.trans hget
      exact ⟨Array.mem_of_getElem? hj, hid⟩
    · cases hget
  · rintro ⟨hmem, hid⟩
    obtain ⟨n, hn⟩ := Array.mem_iff_getElem?.1 hmem
    rw [get?, (hposition n).2 ⟨i, hn, hid⟩]
    exact hn

/-- One more invocation with a new id that depends on what is there already. -/
theorem push (hfree : i.id ∉ g.ids) (hknown : ∀ p ∈ i.predecessors.keys, p ∈ g.ids)
    (hproducers : ∀ a ∈ i.inputs.values, a.producer ∈ i.predecessors.keys)
    (hnative : ∀ a ∈ i.inputs.values, a.pass = g.pass) : (g.push i).Coherent where
  nodup := by
    rw [ids_push, List.nodup_append]
    refine ⟨h.nodup, by simp, fun a ha b hb hab => hfree ?_⟩
    rwa [← List.mem_singleton.1 hb, ← hab]
  index id n := by
    rw [getElem?_ids_push, Graph.push, Std.HashMap.getElem?_insert]
    by_cases hid : i.id = id
    · have hne : g.ids[n]? ≠ some id := fun hn => hfree (hid ▸ List.mem_of_getElem? hn)
      by_cases hn : n = g.invocations.size
      · simp [hid, hn]
      · simp [hid, hn, hne, Ne.symm hn]
    · simp only [beq_iff_eq, hid, if_false, h.index]
      split
      · rename_i hn
        simp [hn, hid]
      · rfl
  earlier n j hj p hp := by
    have hearlier : ∃ m < n, g.ids[m]? = some p := by
      rw [Graph.push, Array.getElem?_push] at hj
      split at hj
      · cases hj
        obtain ⟨m, hm⟩ := List.mem_iff_getElem?.1 (hknown p hp)
        have hlt := (List.getElem?_eq_some_iff.1 hm).1
        rw [length_ids] at hlt
        exact ⟨m, by omega, hm⟩
      · exact h.earlier n j hj p hp
    obtain ⟨m, hm, hpm⟩ := hearlier
    refine ⟨m, hm, ?_⟩
    rw [ids_push, List.getElem?_append_left (List.getElem?_eq_some_iff.1 hpm).1, hpm]
  producers j hj := by
    rcases Array.mem_push.1 hj with hj | rfl
    · exact h.producers j hj
    · exact hproducers
  native j hj := by
    rcases Array.mem_push.1 hj with hj | rfl
    · exact h.native j hj
    · exact hnative

end Coherent

theorem not_contains_of_freeId {base : String} {allowSuffix : Bool}
    (h : g.freeId base allowSuffix = .ok id) : g.contains id = false :=
  Bool.eq_false_iff.2 (freeId_eq_ok_iff.1 h).1.not_taken

/-- What holds of a request that a graph accepts under an id. -/
structure Accepts (g : Graph) (slot : Slot) (r : InvocationRequest) (id : String) : Prop where
  isOpen : g.isOpen slot = true
  native : ∀ a ∈ r.inputs.values, a.pass = g.pass
  known : ∀ p ∈ r.allPredecessors.keys, g.contains p = true
  free : g.freeId r.baseId r.allowSuffix = .ok id

theorem foreignInput?_eq_none_iff :
    g.foreignInput? r = none ↔ ∀ a ∈ r.inputs.values, a.pass = g.pass := by
  simp only [foreignInput?, List.find?_eq_none, Dict.values, List.forall_mem_map]
  simp

/-- The first predecessor of a request that is not in the graph. -/
def unknown? (g : Graph) (r : InvocationRequest) : Option String :=
  r.allPredecessors.keys.find? fun id => !g.contains id

theorem unknown?_eq_none_iff :
    g.unknown? r = none ↔ ∀ p ∈ r.allPredecessors.keys, g.contains p = true := by
  simp [unknown?]

/-- A request is refused for the first of four reasons that applies, or else accepted. -/
theorem add_eq : g.add slot r =
    if g.isOpen slot = false then .error (.inactivePipeline g.pipeline)
    else match g.foreignInput? r, g.unknown? r, g.freeId r.baseId r.allowSuffix with
      | some (input, a), _, _ =>
        .error (.crossPipelineReference g.pipeline r.baseId input a.pipeline)
      | none, some p, _ => .error (.unknownPredecessor g.pipeline r.baseId p)
      | none, none, .error cause => .error cause
      | none, none, .ok id => .ok (g.push (.ofRequest id r), id) := by
  rw [add, unknown?]
  cases g.isOpen slot
  · rfl
  · cases g.foreignInput? r with
    | some input => rfl
    | none =>
      cases r.allPredecessors.keys.find? fun id => !g.contains id with
      | some p => rfl
      | none => cases g.freeId r.baseId r.allowSuffix <;> rfl

/-- A graph accepts a request if and only if nothing speaks against it, and then it has exactly one
more invocation, at its end. -/
theorem add_eq_ok_iff :
    g.add slot r = .ok (g', id) ↔ g.Accepts slot r id ∧ g' = g.push (.ofRequest id r) := by
  rw [add_eq]
  constructor
  · intro h
    split at h
    · cases h
    · rename_i hopen
      split at h
      all_goals try cases h
      rename_i hinput hunknown hfree
      exact ⟨⟨by simpa using hopen, foreignInput?_eq_none_iff.1 hinput,
        unknown?_eq_none_iff.1 hunknown, hfree⟩, rfl⟩
  · rintro ⟨h, rfl⟩
    rw [foreignInput?_eq_none_iff.2 h.native, unknown?_eq_none_iff.2 h.known, h.free, h.isOpen]
    rfl

/-- What a coherent graph accepts keeps it coherent. -/
theorem Coherent.add (h : g.Coherent) (hadd : g.add slot r = .ok (g', id)) : g'.Coherent := by
  obtain ⟨haccepts, rfl⟩ := add_eq_ok_iff.1 hadd
  refine h.push ?_ ?_ ?_ haccepts.native
  · have hfree := not_contains_of_freeId haccepts.free
    rw [← h.contains_iff, Bool.not_eq_true]
    exact hfree
  · exact fun p hp => h.contains_iff.1 (haccepts.known p hp)
  · intro a ha
    have hproducer : a.producer ∈ r.producers := List.mem_map.2 ⟨a, ha, rfl⟩
    exact NameSet.mem_keys_addAll.2 (.inr hproducer)

/-- A call adds an invocation that fits the step and gives its outputs. -/
theorem call_eq_ok_iff {outputs : StepOutputs} :
    g.call slot r = .ok (g', outputs)
      ↔ r.mismatch? = none ∧ ∃ id, g.add slot r = .ok (g', id)
        ∧ outputs = .ofOutputs id g.pipeline g.pass r.step.signature.outputs := by
  rw [call]
  cases r.mismatch? with
  | some message => simp
  | none =>
    rcases hadd : g.add slot r with cause | ⟨g'', id⟩
    · simp
    · obtain ⟨-, rfl⟩ := add_eq_ok_iff.1 hadd
      simp [eq_comm, and_assoc]

namespace Coherent

variable (h : g.Coherent)
include h

theorem call {outputs : StepOutputs} (hcall : g.call slot r = .ok (g', outputs)) : g'.Coherent := by
  obtain ⟨-, id, hadd, -⟩ := call_eq_ok_iff.1 hcall
  exact h.add hadd

theorem freeId_of_notMem {base : String} (allowSuffix : Bool) (hbase : base ∉ g.ids) :
    g.freeId base allowSuffix = .ok base :=
  freeId_eq_ok_iff.2 ⟨.base fun htaken => hbase (h.contains_iff.1 htaken), .inl rfl⟩

/-- A graph in preparation takes a call under a new name if it has all that the call depends on. -/
theorem call_ok (hopen : g.isOpen slot = true) (hfits : r.mismatch? = none)
    (hnative : ∀ a ∈ r.inputs.values, a.pass = g.pass)
    (hknown : ∀ p ∈ r.allPredecessors.keys, p ∈ g.ids) (hnew : r.baseId ∉ g.ids) :
    g.call slot r = .ok (g.push (.ofRequest r.baseId r),
      .ofOutputs r.baseId g.pipeline g.pass r.step.signature.outputs) := by
  have haccepts : g.Accepts slot r r.baseId :=
    ⟨hopen, hnative, fun p hp => h.contains_iff.2 (hknown p hp), h.freeId_of_notMem _ hnew⟩
  exact call_eq_ok_iff.2 ⟨hfits, r.baseId, add_eq_ok_iff.2 ⟨haccepts, rfl⟩, rfl⟩

end Coherent

end Pipework.Graph
