import Mathlib.Data.List.Induction
import Pipework.Guard
import Pipework.Proofs.Traversal

/-!
# Overlapping dispatches

A dispatch suppresses further runs and releases its suppression at its end. A release brings back
what was there when the suppression was taken, so of several dispatches under way at once the oldest
has to end last: its suppression is the only one that brings back a guard at rest.
`Dispatching.faithful_run_iff` says that this order is all that matters.
-/

namespace Pipework

/-- A guard and the suppressions that are held, the oldest first. -/
structure Dispatching where
  guard : Guard := {}
  held : List Suppression := []

namespace Dispatching

inductive Op where
  | suppress
  /-- Releases the suppression at a place among those held, if there is one. -/
  | release (place : Nat)
  deriving DecidableEq

def step (s : Dispatching) : Op → Dispatching
  | .suppress => { guard := s.guard.suppress.1, held := s.held ++ [s.guard.suppress.2] }
  | .release place =>
    match s.held[place]? with
    | some token => { guard := Guard.release token, held := s.held.eraseIdx place }
    | none => s

def run (s : Dispatching) (ops : List Op) : Dispatching := ops.foldl step s

@[simp] theorem run_nil (s : Dispatching) : s.run [] = s := rfl

@[simp] theorem run_append (s : Dispatching) (ops more : List Op) :
    s.run (ops ++ more) = (s.run ops).run more := List.foldl_append

@[simp] theorem run_singleton (s : Dispatching) (op : Op) : s.run [op] = s.step op := rfl

/-- Runs are suppressed if and only if a suppression is held. -/
def Faithful (s : Dispatching) : Prop := s.guard.suppressed = true ↔ s.held ≠ []

instance (s : Dispatching) : Decidable s.Faithful :=
  inferInstanceAs (Decidable (s.guard.suppressed = true ↔ s.held ≠ []))

/-- The operation releases the oldest suppression while others are held. -/
def Early (s : Dispatching) (op : Op) : Prop := op = .release 0 ∧ 1 < s.held.length

/-- Only the oldest suppression was taken from a guard at rest. -/
inductive Settled : Dispatching → Prop where
  | rest : Settled {}
  | held {first : Suppression} {others : List Suppression} (oldest : first.previous = false)
      (later : ∀ token ∈ others, token.previous = true) : Settled ⟨⟨true⟩, first :: others⟩

variable {s : Dispatching} {op : Op}

theorem Settled.faithful (h : s.Settled) : s.Faithful := by
  cases h <;> simp [Faithful]

theorem Settled.step_suppress (h : s.Settled) : (s.step .suppress).Settled := by
  cases h with
  | rest => exact .held rfl (by simp)
  | held oldest later =>
    refine .held oldest fun token htoken => ?_
    rcases List.mem_append.1 htoken with htoken | htoken
    · exact later token htoken
    · rw [List.mem_singleton.1 htoken]
      rfl

theorem Settled.step_release (h : s.Settled) {place : Nat} (hearly : ¬ s.Early (.release place)) :
    (s.step (.release place)).Settled := by
  cases h with
  | rest => exact .rest
  | @held first others oldest later =>
    cases place with
    | zero =>
      have hothers : others = [] := by simpa [Early] using hearly
      subst hothers
      rw [show step _ (.release 0) = ⟨⟨first.previous⟩, []⟩ from rfl, oldest]
      exact .rest
    | succ place =>
      simp only [step, List.getElem?_cons_succ, List.eraseIdx_cons_succ]
      split
      · rename_i token htoken
        rw [Guard.release, later token (List.mem_of_getElem? htoken)]
        exact .held oldest fun t ht => later t (List.mem_of_mem_eraseIdx ht)
      · exact .held oldest later

theorem Settled.step (h : s.Settled) (hearly : ¬ s.Early op) : (s.step op).Settled := by
  cases op with
  | suppress => exact h.step_suppress
  | release place => exact h.step_release hearly

/-- A guard that goes back to rest too early does not know of the suppressions that are left. -/
theorem Settled.not_faithful_step (h : s.Settled) (hearly : s.Early op) :
    ¬ (s.step op).Faithful := by
  obtain ⟨rfl, hlength⟩ := hearly
  cases h with
  | rest => simp at hlength
  | @held first others oldest later =>
    have hothers : others ≠ [] := by
      rintro rfl
      simp at hlength
    rw [show Dispatching.step _ (.release 0) = ⟨⟨first.previous⟩, others⟩ from rfl]
    simp [Faithful, oldest, hothers]

/-- The guard is suppressed, and so it was when the suppressions that are held were taken. -/
structure Stuck (s : Dispatching) : Prop where
  suppressed : s.guard.suppressed = true
  previous : ∀ token ∈ s.held, token.previous = true

theorem Stuck.step (h : s.Stuck) (op : Op) : (s.step op).Stuck := by
  cases op with
  | suppress =>
    refine ⟨rfl, fun token htoken => ?_⟩
    rcases List.mem_append.1 htoken with htoken | htoken
    · exact h.previous token htoken
    · rw [List.mem_singleton.1 htoken]
      exact h.suppressed
  | release place =>
    simp only [Dispatching.step]
    split
    · rename_i token htoken
      exact ⟨h.previous token (List.mem_of_getElem? htoken),
        fun t ht => h.previous t (List.mem_of_mem_eraseIdx ht)⟩
    · exact h

theorem Stuck.run (h : s.Stuck) (ops : List Op) : (s.run ops).Stuck := by
  induction ops generalizing s with
  | nil => exact h
  | cons op ops ih => exact ih (h.step op)

/-- The oldest suppression is released last, each time that several are held. -/
def InOrder (ops : List Op) : Prop :=
  ∀ before op, before ++ [op] <+: ops → ¬ (run {} before).Early op

theorem inOrder_concat {ops : List Op} :
    InOrder (ops ++ [op]) ↔ InOrder ops ∧ ¬ (run {} ops).Early op :=
  forall_prefix_concat_iff

theorem InOrder.settled_run {ops : List Op} (h : InOrder ops) : (run {} ops).Settled := by
  induction ops using List.reverseRecOn with
  | nil => exact .rest
  | append_singleton ops op ih =>
    obtain ⟨hops, hop⟩ := inOrder_concat.1 h
    rw [run_append, run_singleton]
    exact (ih hops).step hop

/-- After each operation runs are suppressed exactly while a suppression is held, if and only if no
operation releases the oldest suppression while others are held. And a guard that is left suppressed
when nothing is held any more stays so, whatever is suppressed and released afterwards. -/
theorem faithful_run_iff (ops : List Op) :
    ((∀ before, before <+: ops → (run {} before).Faithful) ↔ InOrder ops)
    ∧ ((run {} ops).held = [] → (run {} ops).guard.suppressed = true →
        ∀ more, (run {} (ops ++ more)).guard.suppressed = true) := by
  refine ⟨⟨fun h => ?_, fun h before hp => ?_⟩, fun hheld hguard more => ?_⟩
  · induction ops using List.reverseRecOn with
    | nil =>
      intro before op hp
      simp at hp
    | append_singleton ops op ih =>
      have hops := ih fun before hp => h before (hp.trans (List.prefix_append _ _))
      refine inOrder_concat.2 ⟨hops, fun hearly => ?_⟩
      refine hops.settled_run.not_faithful_step hearly ?_
      rw [← run_singleton, ← run_append]
      exact h _ (List.prefix_refl _)
  · have hbefore : InOrder before := fun earlier op hq => h earlier op (hq.trans hp)
    exact hbefore.settled_run.faithful
  · rw [run_append]
    have hstuck : (run {} ops).Stuck := ⟨hguard, by simp [hheld]⟩
    exact (hstuck.run more).suppressed

/-- Two dispatches of which the first to begin is the first to end. -/
def overlapping : List Op := [.suppress, .suppress, .release 0, .release 0]

/-- After two overlapping dispatches every later run is suppressed. -/
theorem faithful_run_iff_overlapping :
    (run {} overlapping).held = [] ∧ (run {} overlapping).guard.suppressed = true
    ∧ ∀ more, (run {} (overlapping ++ more)).guard.suppressed = true :=
  ⟨rfl, rfl, (faithful_run_iff overlapping).2 rfl rfl⟩

/-- The first of two overlapping dispatches ends, and runs are no longer suppressed. -/
theorem not_forall_faithful_run : ¬ ∀ ops, (run {} ops).Faithful := by
  intro h
  exact absurd (h [.suppress, .suppress, .release 0]) (by decide)

end Dispatching

end Pipework
