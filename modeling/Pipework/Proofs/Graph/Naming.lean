import Pipework.Proofs.Graph.Thread

/-!
# The ids that graphs give

Every request that a graph accepts in a run gets the first free id for its base, whatever ids the
graph has already. Requests with one base therefore get its candidates one after another
(`Thread.first_free_run`).
-/

namespace Pipework

namespace Graph

variable {g : Graph} {slot : Slot} {r : InvocationRequest} {base id : String} {allowSuffix : Bool}
  {m n : Nat}

/-- The ids for a base in the order in which they are tried. -/
def candidate (base : String) : Nat → String
  | 0 => base
  | n + 1 => suffixed base (n + 2)

theorem candidate_inj : candidate base m = candidate base n ↔ m = n := by
  cases m <;> cases n <;> simp [candidate, suffixed_ne_base.symm]

theorem candidate_mem_iff : candidate base m ∈ (List.range n).map (candidate base) ↔ m < n := by
  simp [candidate_inj]

/-- After the first candidates the next one is free. -/
theorem firstFree_candidate (allowed : n = 0 ∨ allowSuffix = true) :
    FirstFree (· ∈ (List.range n).map (candidate base)) base allowSuffix (candidate base n) := by
  have hfree : candidate base n ∉ (List.range n).map (candidate base) := by
    intro h
    exact absurd (candidate_mem_iff.1 h) (Nat.lt_irrefl n)
  cases n with
  | zero => exact .base hfree
  | succ n =>
    refine .suffixed ?_ (allowed.resolve_left (Nat.succ_ne_zero n)) (Nat.le_add_left 2 n) hfree ?_
    · exact candidate_mem_iff.2 (Nat.succ_pos n)
    · intro m hle hlt
      obtain ⟨k, rfl⟩ := Nat.exists_eq_add_of_le' hle
      have hlt : k + 1 < n + 1 := by omega
      exact candidate_mem_iff.2 hlt

theorem FirstFree.eq_candidate
    (h : FirstFree (· ∈ (List.range n).map (candidate base)) base allowSuffix id) :
    id = candidate base n := by
  apply h.unique
  apply firstFree_candidate
  cases h with
  | base free =>
    have hzero : ¬ 0 < n := mt candidate_mem_iff.2 free
    exact .inl (Nat.eq_zero_of_not_pos hzero)
  | suffixed clash allowed two_le free least => exact .inr allowed

theorem Accepts.firstFree (h : g.Accepts slot r id) (coherent : g.Coherent) :
    FirstFree (· ∈ g.ids) r.baseId r.allowSuffix id := by
  have hfirst := (freeId_eq_ok_iff.1 h.free).1
  simpa only [coherent.contains_iff] using hfirst

end Graph

namespace Thread

variable {t : Thread} {place : Nat} {r : InvocationRequest} {id base : String}

/-- The ids of the graph at a place. -/
def ids (t : Thread) (place : Nat) : List String := (t.graphs[place]?).elim [] Graph.ids

/-- The request that the graph at a place accepts in one operation, with the id that it gets. -/
def granted? (t : Thread) (place : Nat) : Op → Option (InvocationRequest × String)
  | .add place' r => match (t.step (.add place' r)).1 with
    | .ok (some id) => if place' = place then some (r, id) else none
    | _ => none
  | _ => none

/-- The requests that the graph at a place accepts in a run, with the ids that they get. -/
def accepted (t : Thread) (place : Nat) : List Op → List (InvocationRequest × String)
  | [] => []
  | op :: ops => (t.granted? place op).toList ++ (t.step op).2.accepted place ops

/-- The invocations of the graph at a place. -/
def invocations (t : Thread) (place : Nat) : List Invocation :=
  (t.graphs[place]?).elim [] (·.invocations.toList)

theorem ids_eq (t : Thread) (place : Nat) : t.ids place = (t.invocations place).map (·.id) := by
  rw [ids, invocations]
  cases t.graphs[place]? <;> rfl

@[simp] theorem invocations_new (t : Thread) (place : Nat) (pipeline : String) (pass : Uuid)
    (detached : Bool) :
    (t.step (.new pipeline pass detached)).2.invocations place = t.invocations place := by
  simp only [step, invocations]
  grind

/-- One operation puts the invocation that is granted, if there is one, at the end. -/
theorem invocations_step (t : Thread) (place : Nat) (op : Op) :
    (t.step op).2.invocations place
      = t.invocations place ++ (t.granted? place op).toList.map fun e => .ofRequest e.2 e.1 := by
  cases op with
  | new pipeline pass detached => simp [granted?]
  | enter pipeline pass =>
    have henter : (t.step (.enter pipeline pass)).2.invocations place = t.invocations place := by
      simp only [step]
      split <;> rfl
    simp [henter, granted?]
  | leave place' =>
    have hleave : (t.step (.leave place')).2.invocations place = t.invocations place := by
      simp only [step]
      split <;> rfl
    simp [hleave, granted?]
  | add place' r =>
    rcases t.step_add place' r with ⟨g, id, hg, -, hstep⟩ | ⟨hstep, hnone⟩
    · simp only [granted?, hstep]
      obtain ⟨hlt, -⟩ := List.getElem?_eq_some_iff.1 hg
      by_cases hplace : place' = place
      · subst hplace
        simp [invocations, hg, List.getElem?_set_self hlt, Graph.push]
      · simp [invocations, List.getElem?_set_ne hplace, hplace]
    · simp [hstep, granted?]

/-- One operation puts the id that is granted, if there is one, at the end. -/
theorem ids_step (t : Thread) (place : Nat) (op : Op) :
    (t.step op).2.ids place = t.ids place ++ (t.granted? place op).toList.map (·.2) := by
  rw [ids_eq, ids_eq, invocations_step, List.map_append, List.map_map]
  rfl

theorem ids_run (t : Thread) (place : Nat) (ops : List Op) :
    (t.run ops).ids place = t.ids place ++ (t.accepted place ops).map (·.2) := by
  induction ops generalizing t with
  | nil => simp [run, accepted]
  | cons op ops ih =>
    change ((t.step op).2.run ops).ids place = _
    rw [ih, ids_step, accepted, List.map_append, List.append_assoc]

theorem ids_of_getElem? {g : Graph} (h : t.graphs[place]? = some g) : t.ids place = g.ids := by
  rw [ids, h]
  rfl

/-- What an operation grants is the first free id. -/
theorem Coherent.firstFree_of_granted? (h : t.Coherent) {op : Op}
    (hgranted : t.granted? place op = some (r, id)) :
    Graph.FirstFree (· ∈ t.ids place) r.baseId r.allowSuffix id := by
  cases op with
  | new | enter | leave => cases hgranted
  | add place' r' =>
    rcases t.step_add place' r' with ⟨g, id', hg, haccepts, hstep⟩ | ⟨-, hnone⟩
    · simp only [granted?, hstep] at hgranted
      split at hgranted
      · rename_i hplace
        subst hplace
        cases hgranted
        rw [ids_of_getElem? hg]
        exact haccepts.firstFree (h g (List.mem_of_getElem? hg))
      · cases hgranted
    · simp [granted?] at hgranted

/-- With one base for all that is accepted, the ids of a graph are always the first candidates. -/
theorem Coherent.ids_run_of_baseId (h : t.Coherent) {n : Nat} {ops : List Op}
    (hids : t.ids place = (List.range n).map (Graph.candidate base))
    (hbase : ∀ e ∈ t.accepted place ops, e.1.baseId = base) :
    (t.run ops).ids place
      = (List.range (n + (t.accepted place ops).length)).map (Graph.candidate base) := by
  induction ops generalizing t n with
  | nil => exact hids
  | cons op ops ih =>
    simp only [accepted, List.forall_mem_append] at hbase
    have hstep : (t.step op).2.ids place
        = (List.range (n + (t.granted? place op).toList.length)).map (Graph.candidate base) := by
      rw [ids_step, hids]
      cases hgranted : t.granted? place op with
      | none => simp
      | some e =>
        -- The id that is granted is the next candidate.
        have hfirst := h.firstFree_of_granted? hgranted
        rw [hids, hbase.1 e (by simp [hgranted])] at hfirst
        simp [List.range_succ, hfirst.eq_candidate]
    have hrun := ih (h.step op) hstep hbase.2
    rwa [Nat.add_assoc, ← List.length_append] at hrun

/-- A request that is accepted in a run gets an id that is not in its graph. It is the base of the
request if that is free, and otherwise the base with the least number from two on that makes it
free, which the request has to allow. If all requests that a graph has accepted have one base, it is
given first, and then with the numbers from two on in order. -/
theorem first_free_run (ops : List Op) :
    (∀ place g r id, (run {} ops).graphs[place]? = some g →
      ((run {} ops).step (.add place r)).1 = .ok (some id) →
      id ∉ g.ids ∧ Graph.FirstFree (· ∈ g.ids) r.baseId r.allowSuffix id)
    ∧ ∀ place base, (∀ e ∈ accepted {} place ops, e.1.baseId = base) →
      (accepted {} place ops).map (·.2)
        = (List.range (accepted {} place ops).length).map (Graph.candidate base) := by
  have hempty : Coherent {} := fun g hg => absurd hg List.not_mem_nil
  constructor
  · intro place g r id hg hadd
    have hgranted : (run {} ops).granted? place (.add place r) = some (r, id) := by
      simp [granted?, hadd]
    have hfirst := (hempty.run ops).firstFree_of_granted? hgranted
    rw [ids_of_getElem? hg] at hfirst
    exact ⟨hfirst.not_taken, hfirst⟩
  · intro place base hbase
    have hnone : ids {} place = (List.range 0).map (Graph.candidate base) := rfl
    have hids := hempty.ids_run_of_baseId hnone hbase
    rw [ids_run, Nat.zero_add] at hids
    exact hids

theorem contains_loaded (id : String) : loaded.contains id = (id == "loader") := by
  simp [Graph.contains, loaded, entered, Graph.push, Invocation.ofRequest, Bool.beq_comm]

theorem add_loaded : loaded.add (some ⟨entered.pipeline, entered.pass⟩) { step := loader }
    = .ok (loaded.push (.ofRequest "loader_2" { step := loader }), "loader_2") := by
  refine Graph.add_eq_ok_iff.2 ⟨⟨rfl, fun a ha => absurd ha List.not_mem_nil,
    fun p hp => absurd hp List.not_mem_nil, ?_⟩, rfl⟩
  refine Graph.freeId_eq_ok_iff.2
    ⟨@Graph.FirstFree.suffixed _ "loader" true 2 ?_ rfl (Nat.le_refl 2) ?_ ?_,
      .inr ⟨2, by decide, rfl⟩⟩
  · simp [contains_loaded]
  · simp [contains_loaded]
  · intro m hle hlt
    omega

/-- A second call of the step gets the number two. -/
theorem first_free_run_again :
    let again : Op := .add 0 { step := loader }
    ((run {} loading).step again).1 = .ok (some "loader_2") ∧ "loader_2" ∉ loaded.ids
    ∧ (accepted {} 0 (loading ++ [again])).map (·.2) = ["loader", "loader_2"] := by
  intro again
  have hagain : ((run {} loading).step again).1 = .ok (some "loader_2") := by
    simp [run_loading, again, step, add_loaded]
  have hgraph : (run {} loading).graphs[0]? = some loaded := by rw [run_loading]; rfl
  have haccepted : accepted {} 0 (loading ++ [again])
      = [({ step := loader }, "loader"), ({ step := loader }, "loader_2")] := by
    change accepted { graphs := [entered], slot := some ⟨_, _⟩, held := [entered.pass] } 0
      [.add 0 { step := loader }, again] = _
    simp [accepted, granted?, step, again, add_entered, add_loaded]
  have hbase : ∀ e ∈ accepted {} 0 (loading ++ [again]), e.1.baseId = "loader" := by
    simp [haccepted, InvocationRequest.baseId, loader]
  refine ⟨hagain, ((first_free_run loading).1 0 loaded _ _ hgraph hagain).1, ?_⟩
  rw [(first_free_run (loading ++ [again])).2 0 "loader" hbase, haccepted]
  rfl

end Thread

end Pipework
