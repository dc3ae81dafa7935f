import Pipework.Proofs.Dispatch.Stages
import Pipework.Proofs.Program.Isolation

/-!
# The progress of a run

A run makes its requests in the order of their phases, those after registration once at most, and
where it fails it has made those of all earlier phases and none of a later one. Before its first
request it has only taken identifiers from the world.
-/

namespace Pipework

/-! ## Order -/

namespace RunPhase

/-- Every run that comes so far makes a request of this phase. -/
def Required (phase : RunPhase) : Prop := phase ∈ [.deployment, .preparation, .start, .report]

instance (phase : RunPhase) : Decidable phase.Required := inferInstanceAs (Decidable (_ ∈ _))

theorem position_injective {a b : RunPhase} (h : a.position = b.position) : a = b := by
  cases a <;> cases b <;> first | rfl | cases h

end RunPhase

/-- Requests by which a run comes from one phase to another. They ascend, but for those of a
registration, of which there can be several. -/
structure Progress (origin target : RunPhase) (requests : List RunRequest) : Prop where
  ascending : requests.Pairwise fun a b =>
    a.phase = .registration ∨ a.phase.position < b.phase.position
  bounds : ∀ r ∈ requests,
    origin.position ≤ r.phase.position ∧ r.phase.position < target.position
  complete : ∀ phase : RunPhase, phase.Required → origin.position ≤ phase.position →
    phase.position < target.position → ∃ r ∈ requests, r.phase = phase

namespace Progress

variable {origin middle target : RunPhase} {requests later : List RunRequest}

theorem refl (phase : RunPhase) : Progress phase phase [] where
  ascending := .nil
  bounds := List.forall_mem_nil _
  complete _ _ hle hlt := absurd hlt (Nat.not_lt.2 hle)

theorem trans (h : Progress origin middle requests) (h' : Progress middle target later)
    (hle : origin.position ≤ middle.position) (hle' : middle.position ≤ target.position) :
    Progress origin target (requests ++ later) where
  ascending := List.pairwise_append.2 ⟨h.ascending, h'.ascending, fun a ha b hb =>
    .inr (Nat.lt_of_lt_of_le (h.bounds a ha).2 (h'.bounds b hb).1)⟩
  bounds := List.forall_mem_append.2
    ⟨fun r hr => ⟨(h.bounds r hr).1, Nat.lt_of_lt_of_le (h.bounds r hr).2 hle'⟩,
      fun r hr => ⟨Nat.le_trans hle (h'.bounds r hr).1, (h'.bounds r hr).2⟩⟩
  complete phase hphase horigin htarget := by
    rcases Nat.lt_or_ge phase.position middle.position with hlt | hge
    · obtain ⟨r, hr, rfl⟩ := h.complete phase hphase horigin hlt
      exact ⟨r, List.mem_append_left _ hr, rfl⟩
    · obtain ⟨r, hr, rfl⟩ := h'.complete phase hphase hge htarget
      exact ⟨r, List.mem_append_right _ hr, rfl⟩

/-- A phase in which nothing has to be done. -/
theorem skip (hphase : ¬ origin.Required) (hnext : target.position = origin.position + 1) :
    Progress origin target [] where
  ascending := .nil
  bounds := List.forall_mem_nil _
  complete phase hrequired hle hlt := by
    have heq : origin = phase := RunPhase.position_injective (by omega)
    exact absurd (heq ▸ hrequired) hphase

/-- A phase of one request. -/
theorem single {r : RunRequest} (hphase : r.phase = origin)
    (hnext : target.position = origin.position + 1) : Progress origin target [r] where
  ascending := List.pairwise_singleton _ _
  bounds := by simp [hphase, hnext]
  complete phase _ hle hlt := by
    have heq : origin = phase := RunPhase.position_injective (by omega)
    exact ⟨r, List.mem_cons_self, hphase.trans heq⟩

/-- The phase of registration, with any number of requests. -/
theorem registration (h : ∀ r ∈ requests, r.phase = .registration) :
    Progress .registration .schedule requests where
  ascending := List.Pairwise.imp_of_mem (fun ha _ _ => .inl (h _ ha))
    (List.pairwise_of_forall fun _ _ => trivial)
  bounds r hr := by
    rw [h r hr]
    decide
  complete phase hrequired _ hlt := by
    have heq : phase = .registration := RunPhase.position_injective (Nat.lt_one_iff.1 hlt)
    rw [heq] at hrequired
    exact absurd hrequired (by decide)

end Progress

namespace Coordinator

variable {c : Coordinator} {p : Pipeline} {d : Deployment} {spec : Spec} {w : World}
  {stage stage' : RunStage} {requests : List RunRequest} {e : Error}

/-- The requests of a stage belong to its phase. -/
theorem Advance.phase_eq {outcome : Except Error RunStage}
    (h : c.Advance p d spec w stage requests outcome) : ∀ r ∈ requests, r.phase = stage.phase := by
  cases h with
  | registered phases | unregistered phases => exact phases
  | _ => simp [RunRequest.phase, RunStage.phase]

theorem Advance.progress (h : c.Advance p d spec w stage requests (.ok stage')) :
    stage.phase.position ≤ stage'.phase.position
      ∧ Progress stage.phase stage'.phase requests := by
  have hschedule : ¬ RunPhase.schedule.Required := by decide
  have hbuild : ¬ RunPhase.build.Required := by decide
  cases h with
  | unlisted => exact ⟨Nat.zero_le _, .registration (List.forall_mem_nil _)⟩
  | registered phases => exact ⟨Nat.zero_le _, .registration phases⟩
  | unscheduled => exact ⟨Nat.le_succ _, .skip hschedule rfl⟩
  | unbuilt | reused => exact ⟨Nat.le_succ _, .skip hbuild rfl⟩
  | scheduled | built | recorded | prepared | deployed | reported =>
    exact ⟨Nat.le_succ _, .single rfl rfl⟩
  | finished => exact ⟨Nat.le_refl _, .refl _⟩

/-- A stage that fails has made one request at most, unless it registers. -/
theorem Advance.ascending {outcome : Except Error RunStage}
    (h : c.Advance p d spec w stage requests outcome) : requests.Pairwise fun a b =>
      a.phase = .registration ∨ a.phase.position < b.phase.position := by
  cases h with
  | registered phases | unregistered phases => exact (Progress.registration phases).ascending
  | _ => simp

/-- How a run ends that is in a phase, given the requests that it makes from there on: it comes to
the last phase, or a later stage fails, after all phases before it. -/
inductive Finish (c : Coordinator) (p : Pipeline) (d : Deployment) (spec : Spec) (w : World)
    (origin : RunPhase) : List RunRequest → Except Error RunRecords → Prop where
  | completed {requests : List RunRequest} {records : RunRecords}
      (progress : Progress origin .finished requests) :
      Finish c p d spec w origin requests (.ok records)
  | failed {before last : List RunRequest} {stage : RunStage} {e : Error}
      (later : origin.position ≤ stage.phase.position)
      (progress : Progress origin stage.phase before)
      (own : ∀ r ∈ last, r.phase = stage.phase)
      (advance : c.Advance p d spec (w.performAll before) stage last (.error e))
      (step : c.advance p d spec stage (w.performAll before)
        = (.error e, w.performAll (before ++ last))) :
      Finish c p d spec w origin (before ++ last) (.error e)

namespace Finish

variable {origin middle : RunPhase} {before later : List RunRequest}
  {result : Except Error RunRecords}

theorem ascending (h : Finish c p d spec w origin requests result) :
    requests.Pairwise fun a b => a.phase = .registration ∨ a.phase.position < b.phase.position := by
  cases h with
  | completed progress => exact progress.ascending
  | failed _ progress own advance =>
    refine List.pairwise_append.2 ⟨progress.ascending, advance.ascending, fun a ha b hb => .inr ?_⟩
    rw [own b hb]
    exact (progress.bounds a ha).2

/-- What comes before the phase in which a run is known to end in some way. -/
theorem prepend (h : Finish c p d spec (w.performAll before) middle later result)
    (hle : origin.position ≤ middle.position) (hprogress : Progress origin middle before) :
    Finish c p d spec w origin (before ++ later) result := by
  cases h with
  | completed progress =>
    refine .completed (hprogress.trans progress hle ?_)
    cases middle <;> decide
  | failed hlater progress own advance step =>
    rw [← World.performAll_append] at advance step
    rw [← List.append_assoc]
    refine .failed (Nat.le_trans hle hlater) (hprogress.trans progress hle hlater) own advance ?_
    rw [step, ← World.performAll_append, List.append_assoc]

end Finish

/-- From each stage on a run makes its requests in order, until it is finished or fails. -/
theorem Trace.finish {result : Except Error RunRecords}
    (h : c.Trace p d spec stage w requests result) :
    Finish c p d spec w stage.phase requests result := by
  induction h with
  | done records w => exact .completed (.refl _)
  | @failed stage w last e advance step =>
    change Finish c p d spec w stage.phase ([] ++ last) (.error e)
    exact .failed (Nat.le_refl _) (.refl _) advance.phase_eq advance step
  | next advance step rest ih =>
    obtain ⟨hle, hprogress⟩ := advance.progress
    exact ih.prepend hle hprogress

end Coordinator

/-! ## Whole runs -/

namespace Workflow

variable {σ : Type}

/-- How a run of a workflow ends, given the world in which its preparation has ended and the
requests that it has made since. -/
inductive RunEnding (flow : Workflow σ) (c : Coordinator) (p : Pipeline) (s : Session σ)
    (w : World) : List RunRequest → Except Error RunOutcome → Prop where
  | suppressed (suppressed : c.isSuppressed s.world = true) :
      RunEnding flow c p s w [] (.ok .suppressed)
  | unprepared {e : Error} {p' : Pipeline} {s' : Session σ}
      (prepare : flow.prepareIfPossible p s = (.error e, p', s')) :
      RunEnding flow c p s w [] (.error e)
  | uncompiled {e : Error} {p' : Pipeline} {s' : Session σ}
      (prepare : flow.prepareIfPossible p s = (.ok (), p', s'))
      (compile : p'.compile c.materializers c.stack = .error e) :
      RunEnding flow c p s w [] (.error e)
  | dispatched {requests : List RunRequest} {result : Except Error RunRecords} {p' : Pipeline}
      {s' : Session σ} {d : Deployment} {spec : Spec}
      (prepare : flow.prepareIfPossible p s = (.ok (), p', s'))
      (compile : p'.compile c.materializers c.stack = .ok (d, spec))
      (trace : c.Trace p' d spec .register w requests result)
      (finish : c.Finish p' d spec w .registration requests result) :
      RunEnding flow c p s w requests (result.map .dispatched)

variable {flow : Workflow σ} {c : Coordinator} {p : Pipeline} {s : Session σ} {w : World}
  {requests : List RunRequest} {result : Except Error RunOutcome}

/-- An action that goes on after a preparation. -/
theorem bind_of_ok {α β : Type} {x : Action σ α} {f : α → Action σ β} {p' : Pipeline}
    {s' : Session σ} {a : α} (h : x p s = (.ok a, p', s')) : (x >>= f) p s = f a p' s' := by
  simp only [bind, h]

theorem bind_of_error {α β : Type} {x : Action σ α} {f : α → Action σ β} {p' : Pipeline}
    {s' : Session σ} {e : Error} (h : x p s = (.error e, p', s')) :
    (x >>= f) p s = (.error e, p', s') := by
  simp only [bind, h]

theorem RunEnding.ascending (h : flow.RunEnding c p s w requests result) :
    requests.Pairwise fun a b => a.phase = .registration ∨ a.phase.position < b.phase.position := by
  cases h with
  | dispatched _ _ _ finish => exact finish.ascending
  | suppressed | unprepared | uncompiled => exact .nil

/-- A run makes its requests after its preparation, and it ends in one of the ways that there
are. -/
theorem exists_ending_run (flow : Workflow σ) (c : Coordinator) (p : Pipeline) (s : Session σ) :
    ∃ n w requests, w = { s.world with ids := s.world.ids.after n }
      ∧ (flow.run c p s).2.2.world = w.performAll requests
      ∧ flow.RunEnding c p s w requests (flow.run c p s).1 := by
  rw [run]
  split
  · rename_i hsuppressed
    exact ⟨0, s.world, [], rfl, rfl, .suppressed hsuppressed⟩
  · obtain ⟨n, hids⟩ := sameButIds_prepareIfPossible (w := flow) (p := p) (s := s)
    rcases hprepare : flow.prepareIfPossible p s with ⟨e | _, p', s'⟩
    · rw [hprepare] at hids
      rw [bind_of_error hprepare]
      exact ⟨n, s'.world, [], hids, rfl, .unprepared hprepare⟩
    · rw [hprepare] at hids
      rw [bind_of_ok hprepare]
      have heffect : effect (fun p => RunOutcome.dispatched <$> c.dispatch p) p' s'
          = ((c.dispatch p' s'.world).1.map .dispatched, p',
            s'.withWorld (c.dispatch p' s'.world).2) := by
        rw [effect, Effect.map_eq]
      rw [heffect]
      refine ⟨n, s'.world, ?_⟩
      cases hcompile : p'.compile c.materializers c.stack with
      | error e =>
        rw [Coordinator.dispatch_of_error hcompile]
        exact ⟨[], hids, rfl, .uncompiled hprepare hcompile⟩
      | ok compiled =>
        obtain ⟨d, spec⟩ := compiled
        obtain ⟨requests, htrace, hworld⟩ := Coordinator.exists_trace_dispatch hcompile s'.world
        exact ⟨requests, hids, hworld, .dispatched hprepare hcompile htrace htrace.finish⟩

end Workflow

end Pipework
