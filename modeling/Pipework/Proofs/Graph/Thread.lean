import Pipework.Proofs.Graph.Coherent

/-!
# Graphs under construction

Any number of graphs are built side by side, and passes enter and leave the one slot in between. All
graphs stay coherent whatever is tried (`Thread.coherent_run`).
-/

namespace Pipework

/-- Graphs under construction, the slot that they share, and the passes of the activations that are
held. -/
structure Thread where
  graphs : List Graph := []
  slot : Slot := none
  held : List Uuid := []

namespace Thread

inductive Op where
  | new (pipeline : String) (pass : Uuid) (detached : Bool)
  | enter (pipeline : String) (pass : Uuid)
  /-- Gives back the activation at a place among those held. -/
  | leave (place : Nat)
  /-- Adds an invocation to the graph at a place. -/
  | add (place : Nat) (request : InvocationRequest)

/-- Does one thing, and gives the id of the invocation if it has added one. -/
def step (t : Thread) : Op → Except GraphError (Option String) × Thread
  | .new pipeline pass detached =>
    (.ok none, { t with graphs := t.graphs ++ [{ pipeline, pass, detached }] })
  | .enter pipeline pass => match t.slot.enter pipeline pass with
    | .ok slot => (.ok none, { t with slot, held := t.held ++ [pass] })
    | .error cause => (.error cause, t)
  | .leave place => match t.held[place]? with
    | some pass => (.ok none, { t with slot := t.slot.leave pass, held := t.held.eraseIdx place })
    | none => (.ok none, t)
  | .add place request => match t.graphs[place]? with
    | some g => match g.add t.slot request with
      | .ok (g, id) => (.ok (some id), { t with graphs := t.graphs.set place g })
      | .error cause => (.error cause, t)
    | none => (.ok none, t)

def run (t : Thread) (ops : List Op) : Thread := ops.foldl (fun t op => (t.step op).2) t

def Coherent (t : Thread) : Prop := ∀ g ∈ t.graphs, g.Coherent

variable {t : Thread}

/-- An attempt to add an invocation gives one graph one more invocation and says its id, or changes
nothing and says none. -/
theorem step_add (t : Thread) (place : Nat) (r : InvocationRequest) :
    (∃ g id, t.graphs[place]? = some g ∧ g.Accepts t.slot r id
      ∧ t.step (.add place r)
        = (.ok (some id), { t with graphs := t.graphs.set place (g.push (.ofRequest id r)) }))
    ∨ (t.step (.add place r)).2 = t ∧ ∀ id, (t.step (.add place r)).1 ≠ .ok (some id) := by
  rw [step]
  cases hg : t.graphs[place]? with
  | none => exact .inr ⟨rfl, by simp⟩
  | some g =>
    rcases hadd : g.add t.slot r with cause | ⟨g', id⟩
    · right
      simp [hadd]
    · left
      obtain ⟨haccepts, rfl⟩ := Graph.add_eq_ok_iff.1 hadd
      exact ⟨g, id, rfl, haccepts, by simp only [hadd]⟩

/-- An operation that fails changes nothing. -/
theorem step_eq_of_error {op : Op} {cause : GraphError} (h : (t.step op).1 = .error cause) :
    (t.step op).2 = t := by
  cases op with
  | new => cases h
  | enter pipeline pass =>
    simp only [step] at h ⊢
    split at h
    · cases h
    · rfl
  | leave place =>
    simp only [step] at h
    split at h <;> cases h
  | add place r =>
    rcases t.step_add place r with ⟨g, id, -, -, hstep⟩ | ⟨hstep, -⟩
    · rw [hstep] at h
      cases h
    · exact hstep

theorem Coherent.step (h : t.Coherent) (op : Op) : (t.step op).2.Coherent := by
  cases op with
  | new pipeline pass detached =>
    intro g hg
    rcases List.mem_append.1 hg with hg | hg
    · exact h g hg
    · rw [List.mem_singleton.1 hg]
      exact .new pipeline pass detached
  | enter pipeline pass =>
    simp only [Thread.step]
    split <;> exact h
  | leave place =>
    simp only [Thread.step]
    split <;> exact h
  | add place r =>
    rcases t.step_add place r with ⟨g, id, hg, haccepts, hstep⟩ | ⟨hstep, -⟩
    · have hpush : (g.push (.ofRequest id r)).Coherent :=
        (h g (List.mem_of_getElem? hg)).add (Graph.add_eq_ok_iff.2 ⟨haccepts, rfl⟩)
      rw [hstep]
      intro g' hg'
      rcases List.mem_or_eq_of_mem_set hg' with hg' | rfl
      · exact h g' hg'
      · exact hpush
    · rwa [hstep]

theorem Coherent.run (h : t.Coherent) (ops : List Op) : (t.run ops).Coherent := by
  induction ops generalizing t with
  | nil => exact h
  | cons op ops ih => exact ih (h.step op)

theorem coherent_of_mem_run {g : Graph} {ops : List Op} (h : g ∈ (run {} ops).graphs) :
    g.Coherent := by
  have hempty : Coherent {} := fun g hg => absurd hg List.not_mem_nil
  exact hempty.run ops g h

theorem run_concat (ops : List Op) (op : Op) : run {} (ops ++ [op]) = ((run {} ops).step op).2 :=
  List.foldl_concat ..

/-- Whatever is tried in whatever order, all graphs are coherent, and an operation that fails leaves
them as they were. -/
theorem coherent_run (ops : List Op) :
    (run {} ops).Coherent
    ∧ ∀ op cause, ((run {} ops).step op).1 = .error cause →
        ((run {} ops).step op).2 = run {} ops := by
  have hempty : Coherent {} := fun g hg => absurd hg List.not_mem_nil
  exact ⟨hempty.run ops, fun _ _ => step_eq_of_error⟩

/-- A step without inputs and outputs. -/
def loader : Step where
  name := "loader"
  source := .ofMain "loader"
  sourceCode := ""
  docstring := none
  signature := {}
  defaults := ∅

/-- A graph whose pass is entered before anything is added to it. -/
def entered : Graph := { pipeline := "training", pass := .ofNat 1 }

def loaded : Graph := entered.push (.ofRequest "loader" { step := loader })

/-- A pass that has called the step. -/
def loading : List Op :=
  [.new entered.pipeline entered.pass false, .enter entered.pipeline entered.pass,
    .add 0 { step := loader }]

theorem add_entered : entered.add (some ⟨entered.pipeline, entered.pass⟩) { step := loader }
    = .ok (loaded, "loader") := by
  refine Graph.add_eq_ok_iff.2 ⟨⟨rfl, fun a ha => absurd ha List.not_mem_nil,
    fun p hp => absurd hp List.not_mem_nil, ?_⟩, rfl⟩
  exact (Graph.Coherent.new _ _ _).freeId_of_notMem true List.not_mem_nil

theorem run_loading : run {} loading
    = { graphs := [loaded], slot := some ⟨entered.pipeline, entered.pass⟩,
        held := [entered.pass] } := by
  change (step { graphs := [entered], slot := some ⟨_, _⟩, held := [entered.pass] } _).2 = _
  simp [step, add_entered]

/-- A second invocation under the same id is refused. -/
theorem coherent_run_duplicate :
    let again : Op := .add 0 { step := loader, allowSuffix := false }
    ((run {} loading).step again).1 = .error (.duplicateInvocation "training" "loader")
    ∧ ((run {} loading).step again).2 = run {} loading ∧ (run {} loading).Coherent := by
  intro again
  have hfree : loaded.freeId "loader" false
      = .error (.duplicateInvocation "training" "loader") := by
    simp [Graph.freeId, Graph.contains, loaded, entered, Graph.push, Invocation.ofRequest]
  have hadd : loaded.add (some ⟨entered.pipeline, entered.pass⟩)
      { step := loader, allowSuffix := false }
      = .error (.duplicateInvocation "training" "loader") := by
    rw [Graph.add_eq, show loaded.isOpen _ = true from rfl,
      show loaded.foreignInput? _ = none from rfl, show loaded.unknown? _ = none from rfl]
    simp [InvocationRequest.baseId, loader, hfree]
  have herror : ((run {} loading).step again).1
      = .error (.duplicateInvocation "training" "loader") := by
    rw [run_loading]
    simp [step, again, hadd]
  exact ⟨herror, (coherent_run loading).2 again _ herror, (coherent_run loading).1⟩

end Thread

end Pipework
