import Pipework.Proofs.Program.Preparation

/-!
# Preparations leave the world alone

While a pipeline is prepared the slot is taken. So whatever its entrypoint does, it can neither
prepare nor run another pipeline, only call steps and entrypoints for their values. All that these
take from the world are identifiers.
-/

namespace Pipework

variable {σ : Type}

/-- The supply when so many more identifiers have been given out. -/
def Supply.after (s : Supply) (n : Nat) : Supply := { s with used := s.used + n }

namespace Session

/-- Whether all that a session has changed in the world since another one is that it has taken
identifiers. -/
def SameButIds (s s' : Session σ) : Prop :=
  ∃ n, s'.world = { s.world with ids := s.world.ids.after n }

theorem SameButIds.refl (s : Session σ) : s.SameButIds s := ⟨0, rfl⟩

theorem SameButIds.trans {s s' s'' : Session σ} (h : s.SameButIds s') (h' : s'.SameButIds s'') :
    s.SameButIds s'' := by
  obtain ⟨n, h⟩ := h
  obtain ⟨m, h'⟩ := h'
  refine ⟨n + m, ?_⟩
  rw [h', h]
  simp only [Supply.after, Nat.add_assoc]

theorem sameButIds_nextId (s : Session σ) : s.SameButIds s.nextId.2 := ⟨1, rfl⟩

theorem SameButIds.slot_eq {s s' : Session σ} (h : s.SameButIds s') :
    s'.world.slot = s.world.slot := by
  obtain ⟨n, h⟩ := h
  rw [h]

/-- A pass that leaves gives the slot back as it found it. -/
theorem SameButIds.withSlot_leave {s s' : Session σ} {pipeline : String}
    (hslot : s.world.slot = none)
    (h : (s.nextId.2.withSlot (some { pipeline, pass := s.nextId.1 })).SameButIds s') :
    s.SameButIds (s'.withSlot (s'.world.slot.leave s.nextId.1)) := by
  obtain ⟨n, h⟩ := h
  refine ⟨1 + n, ?_⟩
  simp only [withSlot, withWorld, nextId, World.nextId, Supply.next] at h ⊢
  rw [h]
  simp [Slot.leave, hslot, Supply.after, Nat.add_assoc]

end Session

/-- Whether an entrypoint leaves the world alone, as long as the slot is taken. -/
def Runner.Isolated (run : Runner σ) : Prop :=
  ∀ (bound : Dict Json) (s : Scene σ), s.session.world.slot.isSome →
    s.session.SameButIds (run bound s).2.session

namespace Pipeline

variable {run : Runner σ} {s : Session σ} (p : Pipeline) (arguments : Dict Json)

theorem sameButIds_nestedBy (hrun : run.Isolated) (hslot : s.world.slot.isSome) :
    s.SameButIds (p.nestedBy run arguments s).2 := by
  cases hbind : p.definition.bind arguments with
  | error e =>
    rw [nestedBy_of_bind_error hbind]
    exact .refl s
  | ok bound =>
    rw [nestedBy_of_bind hbind]
    exact s.sameButIds_nextId.trans (hrun bound (p.aside s) hslot)

/-- A preparation takes the slot and leaves it empty again, or it does not start. -/
theorem sameButIds_prepareBy (hrun : Runner.Isolated run) :
    s.SameButIds (p.prepareBy run arguments s).2.2 := by
  rw [prepareBy]
  split
  · exact .refl s
  · dsimp only
    cases p.definition.bind arguments with
    | error e => exact .refl s
    | ok bound =>
      have hnext : s.SameButIds s.nextId.2 := s.sameButIds_nextId
      have hsame : s.nextId.2.world.slot = s.world.slot := hnext.slot_eq
      cases hslot : s.world.slot with
      | some active => simpa only [hsame, hslot, Slot.enter] using hnext
      | none =>
        have hentry := hrun bound (p.opening s) rfl
        simp only [hsame, hslot, Slot.enter]
        simp only [opening, name] at hentry ⊢
        generalize run bound _ = outcome at hentry ⊢
        obtain ⟨result, scene⟩ := outcome
        have hleft := hentry.withSlot_leave hslot
        cases result <;> exact hleft

/-- A pipeline that is called while the slot is taken is called for its value only. -/
theorem sameButIds_callBy (hrun : Runner.Isolated run) (hslot : s.world.slot.isSome)
    (c : Coordinator) : s.SameButIds (p.callBy run arguments c s).2.2 := by
  rw [callBy_of_isSome hslot]
  exact sameButIds_nestedBy p arguments hrun hslot

end Pipeline

namespace Program

/-- Entrypoints are isolated, whatever they do. -/
theorem isolated_run (program : Program σ) (s : Scene σ) (hslot : s.session.world.slot.isSome) :
    s.session.SameButIds (program.run s).2.session := by
  induction program generalizing s with
  | done result => exact .refl s.session
  | read next ih => exact ih _ s hslot
  | write memory next ih =>
    obtain ⟨n, h⟩ := ih { s with session := { s.session with memory } } hslot
    exact ⟨n, h⟩
  | inspect next ih => exact ih _ s hslot
  | invoke request next ih =>
    rw [run]
    split
    · exact ih _ _ hslot
    · exact ih _ s hslot
  | nested callee entry arguments next ihEntry ih =>
    have hentry : Runner.Isolated fun bound s => (entry bound).run s := ihEntry
    have h := Pipeline.sameButIds_nestedBy callee arguments hentry hslot
    rw [run]
    generalize callee.nestedBy _ arguments s.session = outcome at h ⊢
    exact h.trans (ih _ _ (h.slot_eq ▸ hslot))
  | prepare callee entry arguments next ihEntry ih =>
    have hentry : Runner.Isolated fun bound s => (entry bound).run s := ihEntry
    have h := Pipeline.sameButIds_prepareBy (s := s.session) callee arguments hentry
    rw [run]
    generalize callee.prepareBy _ arguments s.session = outcome at h ⊢
    exact h.trans (ih _ _ (h.slot_eq ▸ hslot))
  | call callee entry arguments coordinator next ihEntry ih =>
    have hentry : Runner.Isolated fun bound s => (entry bound).run s := ihEntry
    have h := Pipeline.sameButIds_callBy callee arguments hentry hslot coordinator
    rw [run]
    generalize callee.callBy _ arguments coordinator s.session = outcome at h ⊢
    exact h.trans (ih _ _ (h.slot_eq ▸ hslot))

end Program

namespace Workflow

variable {w : Workflow σ} {p : Pipeline} {s : Session σ}

/-- Preparing a pipeline changes nothing in the world but the identifiers that are left. -/
theorem sameButIds_prepare (arguments : Dict Json) :
    s.SameButIds (w.prepare arguments p s).2.2 := by
  have hrunner : Runner.Isolated w.runner := fun bound s => (w.entry bound).isolated_run s
  rw [prepare]
  exact p.sameButIds_prepareBy arguments hrunner

theorem sameButIds_prepareIfPossible : s.SameButIds (w.prepareIfPossible p s).2.2 := by
  rw [prepareIfPossible]
  split
  · exact .refl s
  · split
    · exact .refl s
    · exact sameButIds_prepare .empty

end Workflow

end Pipework
