import Mathlib.Data.List.Induction
import Pipework.Proofs.Graph.Thread

/-!
# One pass at a time

A pass that leaves is known by its identifier alone, and passes with the same identifier may enter
again and again. What keeps them apart is that no pass enters while another activation is held: the
slot always is what the one activation that is held was given for (`Thread.exclusive_run`). So no
activation that is given back can clear the slot of a pass that entered after it.
-/

namespace Pipework

/-! ## Graphs that are not active -/

namespace Graph

variable {g : Graph} {slot : Slot} {r : InvocationRequest} {pipeline : String}

theorem freeId_ne_inactive {base : String} {allowSuffix : Bool} :
    g.freeId base allowSuffix ≠ .error (.inactivePipeline pipeline) := by
  intro h
  rw [freeId] at h
  split at h
  · cases h
  · split at h
    · cases h
    · split at h <;> cases h

/-- A request is refused for want of an active pass if and only if the graph is not open. -/
theorem add_eq_inactive_iff : g.add slot r = .error (.inactivePipeline pipeline) ↔
    g.isOpen slot = false ∧ pipeline = g.pipeline := by
  rw [add_eq]
  constructor
  · intro h
    split at h
    · rename_i hclosed
      cases h
      exact ⟨hclosed, rfl⟩
    · split at h
      all_goals try cases h
      rename_i hfree
      exact absurd hfree freeId_ne_inactive
  · rintro ⟨hclosed, rfl⟩
    rw [if_pos hclosed]

end Graph

namespace Thread

/-- What the activations that are held were given for, after one more operation. -/
def givenAfter (t : Thread) (given : List Activation) (op : Op) : List Activation :=
  match op, (t.step op).1 with
  | .enter pipeline pass, .ok _ => given ++ [{ pipeline, pass }]
  | .leave place, _ => given.eraseIdx place
  | _, _ => given

/-- What the activations that are held after some operations were given for, the oldest first: the
pipeline and the pass that were entered. -/
def given (ops : List Op) : List Activation :=
  (ops.foldl (fun (s : Thread × List Activation) op =>
    ((s.1.step op).2, s.1.givenAfter s.2 op)) ({}, [])).2

variable {t : Thread} {held : List Activation} {ops : List Op}

theorem given_concat (ops : List Op) (op : Op) :
    given (ops ++ [op]) = (run {} ops).givenAfter (given ops) op := by
  have hthread (s : Thread × List Activation) : (ops.foldl (fun s op =>
      ((s.1.step op).2, s.1.givenAfter s.2 op)) s).1 = s.1.run ops := by
    induction ops generalizing s with
    | nil => rfl
    | cons op ops ih => exact ih _
  rw [given, List.foldl_concat, hthread]
  rfl

/-- At most one activation is held, and the slot holds what it was given for. -/
structure Exclusive (t : Thread) (held : List Activation) : Prop where
  slot : held = t.slot.toList
  passes : t.held = held.map (·.pass)

theorem Exclusive.step_enter (h : t.Exclusive held) (pipeline : String) (pass : Uuid) :
    (t.step (.enter pipeline pass)).2.Exclusive (t.givenAfter held (.enter pipeline pass)) := by
  cases hslot : t.slot with
  | none =>
    have hheld : held = [] := by simp [h.slot, hslot]
    have hpasses : t.held = [] := by simp [h.passes, hheld]
    simp only [Thread.step, givenAfter, hslot, Slot.enter]
    exact ⟨by simp [hheld], by simp [hheld, hpasses]⟩
  | some active =>
    simp only [Thread.step, givenAfter, hslot, Slot.enter]
    exact h

/-- The activation that is given back is the only one, so the slot is cleared with it. -/
theorem Exclusive.step_leave (h : t.Exclusive held) (place : Nat) :
    (t.step (.leave place)).2.Exclusive (t.givenAfter held (.leave place)) := by
  have hgiven : t.givenAfter held (.leave place) = held.eraseIdx place := rfl
  rw [hgiven, Thread.step]
  cases hslot : t.slot with
  | none =>
    have hheld : held = [] := by simp [h.slot, hslot]
    have hpasses : t.held = [] := by simp [h.passes, hheld]
    simp only [hpasses, hheld, List.getElem?_nil, List.eraseIdx_nil]
    exact ⟨by simp [hslot], by simp [hpasses]⟩
  | some active =>
    have hheld : held = [active] := by simp [h.slot, hslot]
    have hpasses : t.held = [active.pass] := by simp [h.passes, hheld]
    cases place with
    | zero =>
      simp only [hpasses, hheld, List.getElem?_cons_zero, List.eraseIdx_cons_zero]
      exact ⟨by simp [Slot.leave], by simp⟩
    | succ place =>
      simp only [hpasses, hheld, List.getElem?_cons_succ, List.getElem?_nil,
        List.eraseIdx_cons_succ, List.eraseIdx_nil]
      exact ⟨by simp [hslot], by simp [hpasses]⟩

theorem Exclusive.step (h : t.Exclusive held) (op : Op) :
    (t.step op).2.Exclusive (t.givenAfter held op) := by
  cases op with
  | new pipeline pass detached => exact ⟨h.slot, h.passes⟩
  | enter pipeline pass => exact h.step_enter pipeline pass
  | leave place => exact h.step_leave place
  | add place r =>
    have hgiven : t.givenAfter held (.add place r) = held := rfl
    rw [hgiven]
    rcases t.step_add place r with ⟨g, id, -, -, hstep⟩ | ⟨hstep, -⟩
    · rw [hstep]
      exact ⟨h.slot, h.passes⟩
    · rwa [hstep]

theorem exclusive_given (ops : List Op) : (run {} ops).Exclusive (given ops) := by
  induction ops using List.reverseRecOn with
  | nil => exact ⟨rfl, rfl⟩
  | append_singleton ops op ih =>
    rw [run_concat, given_concat]
    exact ih.step op

theorem Exclusive.slot_eq_some_iff (h : t.Exclusive held) {a : Activation} :
    t.slot = some a ↔ held = [a] := by
  rw [h.slot]
  cases t.slot <;> simp

theorem Exclusive.enter_eq_error_iff (h : t.Exclusive held) {pipeline : String} {pass : Uuid}
    {cause : GraphError} : (t.step (.enter pipeline pass)).1 = .error cause ↔
      ∃ a, held = [a] ∧ cause = .concurrentActivation a.pipeline pipeline := by
  simp only [← h.slot_eq_some_iff, Thread.step]
  cases t.slot with
  | none => simp [Slot.enter]
  | some active => simp [Slot.enter, eq_comm]

theorem Exclusive.isOpen_iff (h : t.Exclusive held) {g : Graph} (hattached : g.detached = false) :
    g.isOpen t.slot = true ↔ ∃ a, held = [a] ∧ a.pass = g.pass := by
  simp only [← h.slot_eq_some_iff, Graph.isOpen, hattached, Bool.false_or, Slot.isActive]
  cases t.slot <;> simp

/-- Whatever enters and leaves in whatever order, no two activations are ever held at once, and the
slot is what the one that is held was given for. A pass is refused exactly while one is held, for
the pipeline of that one, and changes nothing, and a graph that is not detached is active exactly
while the activation that is held is the one of its pass. -/
theorem exclusive_run (ops : List Op) :
    ((run {} ops).held = (given ops).map (·.pass) ∧ (given ops).length ≤ 1
      ∧ (run {} ops).slot = (given ops).head?)
    ∧ (∀ pipeline pass,
        (∀ cause, ((run {} ops).step (.enter pipeline pass)).1 = .error cause ↔
          ∃ a, given ops = [a] ∧ cause = .concurrentActivation a.pipeline pipeline)
        ∧ ∀ cause, ((run {} ops).step (.enter pipeline pass)).1 = .error cause →
          ((run {} ops).step (.enter pipeline pass)).2 = run {} ops)
    ∧ ∀ (g : Graph) (r : InvocationRequest), g.detached = false →
        ((∀ pipeline, g.add (run {} ops).slot r ≠ .error (.inactivePipeline pipeline)) ↔
          ∃ a, given ops = [a] ∧ a.pass = g.pass) := by
  have h := exclusive_given ops
  refine ⟨⟨h.passes, ?_, ?_⟩, ?_, ?_⟩
  · rw [h.slot]
    exact Option.length_toList_le
  · rw [h.slot]
    cases (run {} ops).slot <;> rfl
  · intro pipeline pass
    exact ⟨fun cause => h.enter_eq_error_iff, fun cause => step_eq_of_error⟩
  · intro g r hattached
    rw [← h.isOpen_iff hattached]
    simp [Graph.add_eq_inactive_iff]

/-- A second pass with the identifier of the first one, which is refused, and a third one that comes
after the first one has left. -/
def repeated : List Op :=
  [.enter "training" (.ofNat 1), .enter "inference" (.ofNat 1), .leave 0,
    .enter "scoring" (.ofNat 1)]

/-- The third pass holds the slot, though the graph of the first one is open again. -/
theorem exclusive_run_repeated :
    given repeated = [⟨"scoring", .ofNat 1⟩]
    ∧ (run {} repeated).slot = some ⟨"scoring", .ofNat 1⟩
    ∧ ((run {} repeated).step (.enter "training" (.ofNat 2))).1
      = .error (.concurrentActivation "scoring" "training")
    ∧ ((run {} repeated).step (.enter "training" (.ofNat 2))).2 = run {} repeated
    ∧ entered.detached = false
    ∧ ∀ pipeline, entered.add (run {} repeated).slot { step := loader }
      ≠ .error (.inactivePipeline pipeline) := by
  have hgiven : given repeated = [⟨"scoring", .ofNat 1⟩] := rfl
  obtain ⟨⟨-, -, hslot⟩, henter, hgraph⟩ := exclusive_run repeated
  obtain ⟨hrefused, hunchanged⟩ := henter "training" (.ofNat 2)
  have herror := (hrefused _).2 ⟨_, hgiven, rfl⟩
  refine ⟨hgiven, ?_, herror, hunchanged _ herror, rfl, ?_⟩
  · rw [hslot, hgiven]
    rfl
  · exact (hgraph entered _ rfl).2 ⟨_, hgiven, rfl⟩

end Thread

end Pipework
