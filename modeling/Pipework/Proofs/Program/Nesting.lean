import Pipework.Proofs.Dispatch.History
import Pipework.Proofs.Program.Passes

/-!
# Nested pipelines

An entrypoint may call other pipelines for their values, and these may call further ones. The
entrypoint of a pipeline that is called so runs aside, on a graph of its own (`Pipeline.aside`), and
the call returns what this run returns. To the pipeline that is prepared it makes no difference: its
graph is the one of the program in which each such call is replaced by the value of that run
(`Program.inlined`), and this graph refuses all artifacts of the passes of nested calls
(`Program.nestedPasses`). The active pipeline is the same after a nested call as before, however the
call ends.
-/

namespace Pipework

variable {σ : Type}

/-! ## Calls replaced by their values -/

/-- The scene after a call of a step. -/
def Scene.afterCall (s : Scene σ) (request : InvocationRequest) : Scene σ :=
  match s.graph.call s.session.world.slot request with
  | .ok (graph, _) => { s with graph }
  | .error _ => s

namespace Program

/-- What stands in the place of a nested call: the value that the entrypoint of the callee returns
when it runs aside, and the memory that it leaves. An entrypoint whose arguments do not fit does not
run. -/
def replaced (callee : Pipeline) (entry : Dict Json → Program σ) (arguments : Dict Json)
    (next : Except Error Json → Scene σ → Program σ) (s : Scene σ) : Program σ :=
  match callee.definition.bind arguments with
  | .error e => next (.error e) s
  | .ok bound =>
    match (entry bound).run (callee.aside s.session) with
    | (value, { session, .. }) => .write session.memory (next value { s with session })

/-- The program in which each nested call is replaced by the value that its entrypoint returns, when
it runs in this scene. A call of a pipeline is nested if another one is active. -/
def inlined : Program σ → Scene σ → Program σ
  | .done result, _ => .done result
  | .read next, s => .read fun memory => (next memory).inlined s
  | .write memory next, s =>
    .write memory (next.inlined { s with session := { s.session with memory } })
  | .inspect next, s => .inspect fun view => (next view).inlined s
  | .invoke request next, s =>
    .invoke request fun result => (next result).inlined (s.afterCall request)
  | .nested callee entry arguments next, s =>
    replaced callee entry arguments (fun value s => (next value).inlined s) s
  | .prepare callee entry arguments next, s =>
    match callee.prepareBy (fun bound s => (entry bound).run s) arguments s.session with
    | (_, _, session) =>
      .prepare callee entry arguments fun result => (next result).inlined { s with session }
  | .call callee entry arguments coordinator next, s =>
    if s.session.world.slot.isSome then
      replaced callee entry arguments (fun value s => (next (value.map .nested)).inlined s) s
    else
      match callee.callBy (fun bound s => (entry bound).run s) arguments coordinator s.session with
      | (_, _, session) =>
        .call callee entry arguments coordinator fun result =>
          (next result).inlined { s with session }

/-- Programs that call no pipeline, neither for its value nor otherwise. They may try to prepare
pipelines, whose entrypoints do not count: they do not run while another pipeline is active. -/
inductive Flat : Program σ → Prop where
  | done (result : Except Error Json) : Flat (.done result)
  | read {next : σ → Program σ} (h : ∀ memory, Flat (next memory)) : Flat (.read next)
  | write (memory : σ) {next : Program σ} (h : Flat next) : Flat (.write memory next)
  | inspect {next : PassView → Program σ} (h : ∀ view, Flat (next view)) : Flat (.inspect next)
  | invoke (request : InvocationRequest) {next : Except Error StepOutputs → Program σ}
      (h : ∀ result, Flat (next result)) : Flat (.invoke request next)
  | prepare (callee : Pipeline) (entry : Dict Json → Program σ) (arguments : Dict Json)
      {next : Except Error Unit → Program σ} (h : ∀ result, Flat (next result)) :
      Flat (.prepare callee entry arguments next)

end Program

/-! ## The passes of nested calls -/

/-- The pass of a call of a pipeline for its value, and the passes of the nested calls of its
entrypoint. There is none if the arguments do not fit. -/
def Pipeline.passesBy (passes : Dict Json → Scene σ → List Uuid) (p : Pipeline)
    (arguments : Dict Json) (s : Session σ) : List Uuid :=
  match p.definition.bind arguments with
  | .error _ => []
  | .ok bound => (p.aside s).graph.pass :: passes bound (p.aside s)

/-- The passes of the nested calls that a program makes in a scene where a pipeline is active. -/
def Program.nestedPasses : Program σ → Scene σ → List Uuid
  | .done _, _ => []
  | .read next, s => (next s.session.memory).nestedPasses s
  | .write memory next, s => next.nestedPasses { s with session := { s.session with memory } }
  | .inspect next, s => (next s.view).nestedPasses s
  | .invoke request next, s =>
    (next ((s.graph.call s.session.world.slot request).map (·.2))).nestedPasses
      (s.afterCall request)
  | .nested callee entry arguments next, s =>
    match callee.nestedBy (fun bound s => (entry bound).run s) arguments s.session with
    | (result, session) =>
      callee.passesBy (fun bound s => (entry bound).nestedPasses s) arguments s.session
        ++ (next result).nestedPasses { s with session }
  | .prepare callee entry arguments next, s =>
    match callee.prepareBy (fun bound s => (entry bound).run s) arguments s.session with
    | (result, _, session) => (next result).nestedPasses { s with session }
  | .call callee entry arguments coordinator next, s =>
    match callee.callBy (fun bound s => (entry bound).run s) arguments coordinator s.session with
    | (result, _, session) =>
      callee.passesBy (fun bound s => (entry bound).nestedPasses s) arguments s.session
        ++ (next result).nestedPasses { s with session }

namespace Scene

/-- Scenes that differ at most in the records and the identifiers of their worlds. -/
structure Alike (c c' : Scene σ) : Prop where
  graph : c'.graph = c.graph
  memory : c'.session.memory = c.session.memory
  slot : c'.session.world.slot = c.session.world.slot

/-- A nested call and the writing of what it has left in the memory. -/
theorem Alike.write {c c' : Scene σ} {session : Session σ} (h : c.Alike c')
    (hsame : c.session.SameButIds session) :
    Scene.Alike { c with session }
      { c' with session := { c'.session with memory := session.memory } } where
  graph := h.graph
  memory := rfl
  slot := h.slot.trans hsame.slot_eq.symm

theorem session_afterCall (c : Scene σ) (request : InvocationRequest) :
    (c.afterCall request).session = c.session := by
  rw [afterCall]
  split <;> rfl

end Scene

namespace Pipeline

variable {run run' : Runner σ} {p : Pipeline} {s s' : Session σ}

/-- While another pipeline is active it makes no difference who tries to prepare one. -/
theorem prepareBy_of_isSome (run : Runner σ) (p : Pipeline) (arguments : Dict Json)
    (hslot : s.world.slot.isSome) (hsame : s'.world.slot = s.world.slot) :
    (p.prepareBy run arguments s').1 = (p.prepareBy run arguments s).1
    ∧ (p.prepareBy run arguments s).2.2.memory = s.memory
    ∧ (p.prepareBy run arguments s').2.2.memory = s'.memory := by
  have hdefinition : p.definition = p.definition := rfl
  obtain ⟨⟨e, herror, herror'⟩, hsessions⟩ :=
    exists_error_prepareBy run run arguments hdefinition (congrArg _ hsame) hslot
  refine ⟨herror'.trans herror.symm, ?_⟩
  rcases hsessions with ⟨hafter, hafter'⟩ | ⟨hafter, hafter'⟩ <;> rw [hafter, hafter'] <;>
    exact ⟨rfl, rfl⟩

end Pipeline

namespace Program

/-- What is done with a callee while a pipeline is active leaves it active. -/
theorem isSome_slot_of_same {s s' : Session σ} (h : s.SameButIds s') (hslot : s.world.slot.isSome) :
    s'.world.slot.isSome := by
  rwa [h.slot_eq]

/-- A call that is replaced is none any more. -/
theorem flat_replaced (callee : Pipeline) (entry : Dict Json → Program σ) (arguments : Dict Json)
    {next : Except Error Json → Scene σ → Program σ} {c : Scene σ}
    (hslot : c.session.world.slot.isSome)
    (hnext : ∀ value (c : Scene σ), c.session.world.slot.isSome → (next value c).Flat) :
    (replaced callee entry arguments next c).Flat := by
  rw [replaced]
  cases callee.definition.bind arguments with
  | error e => exact hnext _ c hslot
  | ok bound =>
    have hafter := (entry bound).isolated_run (callee.aside c.session) hslot
    exact .write _ (hnext _ _ (isSome_slot_of_same hafter hslot))

theorem flat_inlined (program : Program σ) (c : Scene σ) (hslot : c.session.world.slot.isSome) :
    (program.inlined c).Flat := by
  induction program generalizing c with
  | done result => exact .done result
  | read next ih => exact .read fun memory => ih memory c hslot
  | write memory next ih => exact .write memory (ih _ hslot)
  | inspect next ih => exact .inspect fun view => ih view c hslot
  | invoke request next ih =>
    exact .invoke request fun result => ih result _ (by rwa [c.session_afterCall])
  | nested callee entry arguments next _ ih =>
    exact flat_replaced callee entry arguments hslot fun value => ih value
  | prepare callee entry arguments next _ ih =>
    have hafter := isSome_slot_of_same
      (callee.sameButIds_prepareBy arguments (isolated_entry entry)) hslot
    rw [inlined]
    generalize callee.prepareBy _ arguments c.session = outcome at hafter ⊢
    exact .prepare callee entry arguments fun result => ih result _ hafter
  | call callee entry arguments coordinator next _ ih =>
    rw [inlined, if_pos hslot]
    exact flat_replaced callee entry arguments hslot fun value => ih (value.map .nested)

/-- In the place of a nested call the program goes on with what the call returns, in a scene like
the one that the call leaves. -/
theorem exists_run_replaced (callee : Pipeline) (entry : Dict Json → Program σ)
    (arguments : Dict Json) (next : Except Error Json → Scene σ → Program σ) {c c' : Scene σ}
    {value : Except Error Json} {session : Session σ} (hslot : c.session.world.slot.isSome)
    (h : c.Alike c') (hcall : callee.nestedBy (fun bound s => (entry bound).run s) arguments
      c.session = (value, session)) :
    ∃ d, Scene.Alike { c with session } d
      ∧ (replaced callee entry arguments next c).run c'
        = (next value { c with session }).run d := by
  rw [replaced]
  cases hbind : callee.definition.bind arguments with
  | error e =>
    cases (Pipeline.nestedBy_of_bind_error hbind).symm.trans hcall
    exact ⟨c', h, rfl⟩
  | ok bound =>
    cases (Pipeline.nestedBy_of_bind hbind).symm.trans hcall
    have hafter := (entry bound).isolated_run (callee.aside c.session) hslot
    exact ⟨_, h.write (c.session.sameButIds_nextId.trans hafter), rfl⟩

/-- With its nested calls replaced a program has the same result, and leaves the same graph and
memory. -/
theorem run_inlined (program : Program σ) {c c' : Scene σ} (hslot : c.session.world.slot.isSome)
    (h : c.Alike c') :
    ((program.inlined c).run c').1 = (program.run c).1
    ∧ (program.run c).2.Alike ((program.inlined c).run c').2 := by
  induction program generalizing c c' with
  | done result => exact ⟨rfl, h⟩
  | read next ih =>
    simp only [inlined, Program.run, h.memory]
    exact ih _ hslot h
  | write memory next ih => exact ih hslot ⟨h.graph, rfl, h.slot⟩
  | inspect next ih =>
    have hview : c'.view = c.view := by simp only [Scene.view, h.graph, h.slot]
    simp only [inlined, Program.run, hview]
    exact ih _ hslot h
  | invoke request next ih =>
    simp only [inlined, Program.run, h.graph, h.slot, Scene.afterCall]
    cases c.graph.call c.session.world.slot request with
    | error e => exact ih (.error e) hslot h
    | ok outcome => exact ih (.ok outcome.2) hslot ⟨rfl, h.memory, h.slot⟩
  | nested callee entry arguments next _ ih =>
    have hsame := callee.sameButIds_nestedBy arguments (isolated_entry entry) hslot
    rw [inlined, Program.run]
    rcases hcall : callee.nestedBy _ arguments c.session with ⟨value, session⟩
    rw [hcall] at hsame
    obtain ⟨d, halike, hrun⟩ := exists_run_replaced callee entry arguments
      (fun value s => (next value).inlined s) hslot h hcall
    rw [hrun]
    exact ih value (isSome_slot_of_same hsame hslot) halike
  | prepare callee entry arguments next _ ih =>
    have hsame := callee.sameButIds_prepareBy (s := c.session) arguments (isolated_entry entry)
    have hsame' := callee.sameButIds_prepareBy (s := c'.session) arguments (isolated_entry entry)
    obtain ⟨hresult, hmemory, hmemory'⟩ := Pipeline.prepareBy_of_isSome
      (fun bound s => (entry bound).run s) callee arguments hslot h.slot
    rw [inlined, run_prepare, run_prepare, hresult]
    generalize callee.prepareBy _ arguments c.session = outcome at hsame hmemory ⊢
    generalize callee.prepareBy _ arguments c'.session = outcome' at hsame' hmemory' ⊢
    refine ih _ (isSome_slot_of_same hsame hslot) ⟨h.graph, ?_, ?_⟩
    · rw [hmemory', hmemory, h.memory]
    · rw [hsame'.slot_eq, hsame.slot_eq, h.slot]
  | call callee entry arguments coordinator next _ ih =>
    have hsame := callee.sameButIds_nestedBy arguments (isolated_entry entry) hslot
    rw [inlined, if_pos hslot, Program.run, Pipeline.callBy_of_isSome hslot]
    rcases hcall : callee.nestedBy _ arguments c.session with ⟨value, session⟩
    rw [hcall] at hsame
    obtain ⟨d, halike, hrun⟩ := exists_run_replaced callee entry arguments
      (fun value s => (next (value.map .nested)).inlined s) hslot h hcall
    rw [hrun]
    exact ih (value.map .nested) (isSome_slot_of_same hsame hslot) halike

end Program

/-! ## The active pipeline -/

/-- Whether an entrypoint leaves the active pipeline as it is. -/
def Runner.KeepsSlot (run : Runner σ) : Prop :=
  ∀ (bound : Dict Json) (s : Scene σ), (run bound s).2.session.world.slot = s.session.world.slot

theorem Coordinator.extends_run (c : Coordinator) (p : Pipeline) (w : World) :
    w.Extends (c.run p w).2 := by
  rw [run]
  split
  · exact .refl w
  · rw [Effect.map_eq]
    cases hcompile : p.compile c.materializers c.stack with
    | error e =>
      rw [dispatch_of_error hcompile]
      exact .refl w
    | ok compiled =>
      obtain ⟨requests, -, hworld⟩ := exists_trace_dispatch hcompile w
      rw [hworld]
      exact w.extends_performAll requests

namespace Pipeline

variable {run : Runner σ} (p : Pipeline) (arguments : Dict Json) (s : Session σ)

theorem slot_nestedBy (hrun : run.KeepsSlot) :
    (p.nestedBy run arguments s).2.world.slot = s.world.slot := by
  cases hbind : p.definition.bind arguments with
  | error e => rw [nestedBy_of_bind_error hbind]
  | ok bound =>
    rw [nestedBy_of_bind hbind]
    exact hrun bound (p.aside s)

/-- A call of a pipeline that is not nested prepares and runs it, and leaves no pipeline active as
it found none. -/
theorem slot_callBy (hrun : run.KeepsSlot) (hisolated : run.Isolated) (c : Coordinator) :
    (p.callBy run arguments c s).2.2.world.slot = s.world.slot := by
  have hprepare := p.sameButIds_prepareBy (s := s) arguments hisolated
  rw [callBy]
  split
  · exact p.slot_nestedBy arguments s hrun
  · rcases hprepared : p.prepareBy run arguments s with ⟨e | _, p', s'⟩
    · rw [hprepared] at hprepare
      exact hprepare.slot_eq
    · rw [hprepared] at hprepare
      exact (c.extends_run p' s'.world).slot.trans hprepare.slot_eq

end Pipeline

namespace Program

/-- An entrypoint leaves the active pipeline as it is, whatever it does and however it ends. -/
theorem slot_run (program : Program σ) (s : Scene σ) :
    (program.run s).2.session.world.slot = s.session.world.slot := by
  induction program generalizing s with
  | done result => rfl
  | read next ih => exact ih _ s
  | write memory next ih => exact ih _
  | inspect next ih => exact ih _ s
  | invoke request next ih =>
    rw [run]
    split
    · exact ih _ _
    · exact ih _ s
  | nested callee entry arguments next ihEntry ih =>
    have hentry : Runner.KeepsSlot fun bound s => (entry bound).run s := ihEntry
    have hslot := callee.slot_nestedBy arguments s.session hentry
    rw [run]
    generalize callee.nestedBy _ arguments s.session = outcome at hslot ⊢
    exact (ih _ _).trans hslot
  | prepare callee entry arguments next _ ih =>
    have hslot := (callee.sameButIds_prepareBy (s := s.session) arguments
      (isolated_entry entry)).slot_eq
    rw [run]
    generalize callee.prepareBy _ arguments s.session = outcome at hslot ⊢
    exact (ih _ _).trans hslot
  | call callee entry arguments coordinator next ihEntry ih =>
    have hentry : Runner.KeepsSlot fun bound s => (entry bound).run s := ihEntry
    have hslot := callee.slot_callBy arguments s.session hentry (isolated_entry entry) coordinator
    rw [run]
    generalize callee.callBy _ arguments coordinator s.session = outcome at hslot ⊢
    exact (ih _ _).trans hslot

end Program

/-! ## Artifacts of nested calls -/

/-- Whether an identifier was taken between two sessions. -/
def Session.Took (s s' : Session σ) (id : Uuid) : Prop :=
  ∃ i, s.world.ids.used ≤ i ∧ i < s'.world.ids.used ∧ s.world.ids.sequence i = id

namespace Session

variable {s s' t t' : Session σ} {id : Uuid}

theorem Took.mono (h : t.Took t' id) (hs : s.SameButIds t) (hs' : t'.SameButIds s') :
    s.Took s' id := by
  obtain ⟨i, hlow, hhigh, rfl⟩ := h
  obtain ⟨n, hn⟩ := hs
  obtain ⟨m, hm⟩ := hs'
  rw [hn] at hlow ⊢
  refine ⟨i, ?_, ?_, rfl⟩
  · exact Nat.le_trans (Nat.le_add_right _ _) hlow
  · rw [hm]
    exact Nat.lt_of_lt_of_le hhigh (Nat.le_add_right _ _)

theorem took_nextId (s : Session σ) : s.Took s.nextId.2 s.nextId.1 :=
  ⟨s.world.ids.used, Nat.le_refl _, Nat.lt_succ_self _, rfl⟩

/-- The pass of a preparation is no identifier that its entrypoint takes. -/
theorem Took.ne_of_fresh {p : Pipeline} (h : (p.opening s).session.Took t' id)
    (hsame : (p.opening s).session.SameButIds t') (fresh : t'.world.ids.Fresh) :
    id ≠ s.nextId.1 := by
  obtain ⟨i, hlow, hhigh, rfl⟩ := h
  obtain ⟨n, hn⟩ := hsame
  have hopening : s.world.ids.used < i := hlow
  rw [hn] at fresh hhigh
  intro heq
  have hequal := fresh i hhigh s.world.ids.used (Nat.lt_trans hopening hhigh) heq
  omega

end Session

/-- The passes of a call are identifiers that it takes. -/
theorem Pipeline.took_of_mem_passesBy {run : Runner σ} {passes : Dict Json → Scene σ → List Uuid}
    (hrun : run.Isolated)
    (hpasses : ∀ (bound : Dict Json) (c : Scene σ), c.session.world.slot.isSome →
      ∀ id ∈ passes bound c, c.session.Took (run bound c).2.session id)
    (p : Pipeline) (arguments : Dict Json) {s : Session σ} (hslot : s.world.slot.isSome) :
    ∀ id ∈ p.passesBy passes arguments s, s.Took (p.nestedBy run arguments s).2 id := by
  rw [passesBy]
  cases hbind : p.definition.bind arguments with
  | error e => exact List.forall_mem_nil _
  | ok bound =>
    rw [nestedBy_of_bind hbind]
    intro id hid
    rcases List.mem_cons.1 hid with rfl | hid
    · exact s.took_nextId.mono (.refl s) (hrun bound _ hslot)
    · exact (hpasses bound _ hslot id hid).mono s.sameButIds_nextId (.refl _)

namespace Program

/-- After a callee the passes of the rest of the program come. -/
theorem took_append {α : Type} {passes : List Uuid} {c : Scene σ} {t : Session σ}
    (next : α → Program σ) (a : α) (hslot : c.session.world.slot.isSome)
    (hsame : c.session.SameButIds t) (hpasses : ∀ id ∈ passes, c.session.Took t id)
    (hnext : ∀ c : Scene σ, c.session.world.slot.isSome →
      ∀ id ∈ (next a).nestedPasses c, c.session.Took ((next a).run c).2.session id) :
    ∀ id ∈ passes ++ (next a).nestedPasses { c with session := t },
      c.session.Took ((next a).run { c with session := t }).2.session id := by
  have hafter := isSome_slot_of_same hsame hslot
  intro id hid
  rcases List.mem_append.1 hid with hid | hid
  · exact (hpasses id hid).mono (.refl _) ((next a).isolated_run _ hafter)
  · exact (hnext _ hafter id hid).mono hsame (.refl _)

/-- The passes of nested calls are identifiers that are taken while the program runs. -/
theorem took_of_mem_nestedPasses (program : Program σ) (c : Scene σ)
    (hslot : c.session.world.slot.isSome) :
    ∀ id ∈ program.nestedPasses c, c.session.Took (program.run c).2.session id := by
  induction program generalizing c with
  | done result => exact List.forall_mem_nil _
  | read next ih => exact ih _ c hslot
  | write memory next ih => exact ih _ hslot
  | inspect next ih => exact ih _ c hslot
  | invoke request next ih =>
    rw [nestedPasses, run, Scene.afterCall]
    cases c.graph.call c.session.world.slot request with
    | error e => exact ih (.error e) c hslot
    | ok outcome => exact ih (.ok outcome.2) _ hslot
  | nested callee entry arguments next ihEntry ih =>
    have hsame := callee.sameButIds_nestedBy arguments (isolated_entry entry) hslot
    have hpasses := callee.took_of_mem_passesBy (isolated_entry entry) ihEntry arguments hslot
    rw [nestedPasses, run]
    generalize callee.nestedBy _ arguments c.session = outcome at hsame hpasses ⊢
    exact took_append next outcome.1 hslot hsame hpasses (ih _)
  | prepare callee entry arguments next _ ih =>
    have hsame := callee.sameButIds_prepareBy (s := c.session) arguments (isolated_entry entry)
    rw [nestedPasses, run]
    generalize callee.prepareBy _ arguments c.session = outcome at hsame ⊢
    exact took_append next outcome.1 hslot hsame (List.forall_mem_nil _) (ih _)
  | call callee entry arguments coordinator next ihEntry ih =>
    have hsame := callee.sameButIds_nestedBy arguments (isolated_entry entry) hslot
    have hpasses := callee.took_of_mem_passesBy (isolated_entry entry) ihEntry arguments hslot
    rw [nestedPasses, run, Pipeline.callBy_of_isSome hslot]
    generalize callee.nestedBy _ arguments c.session = outcome at hsame hpasses ⊢
    exact took_append next (outcome.1.map .nested) hslot hsame hpasses (ih _)

end Program

/-- A graph refuses artifacts of other passes. -/
theorem Graph.exists_error_call {g : Graph} {slot : Slot} {r : InvocationRequest} {a : Artifact}
    (ha : a ∈ r.inputs.values) (hpass : a.pass ≠ g.pass) : ∃ e, g.call slot r = .error e := by
  cases hcall : g.call slot r with
  | error e => exact ⟨e, rfl⟩
  | ok outcome =>
    obtain ⟨-, id, hadd, -⟩ := call_eq_ok_iff.1 hcall
    obtain ⟨haccepts, -⟩ := add_eq_ok_iff.1 hadd
    exact absurd (haccepts.native a ha) hpass

/-! ## Preparations -/

/-- The workflow whose entrypoint has its nested calls replaced, when its pipeline is prepared in
this session. -/
def Workflow.inlined (flow : Workflow σ) (p : Pipeline) (s : Session σ) : Workflow σ :=
  { flow with entry := fun bound => (flow.entry bound).inlined (p.opening s) }

/-- Entrypoints that come to the same result with the same graph prepare the same pipeline. -/
theorem Pipeline.prepareBy_congr {run run' : Runner σ} {p : Pipeline} {arguments : Dict Json}
    {s : Session σ} (h : ∀ bound, (run' bound (p.opening s)).1 = (run bound (p.opening s)).1
      ∧ (run bound (p.opening s)).2.Alike (run' bound (p.opening s)).2) :
    (p.prepareBy run' arguments s).1 = (p.prepareBy run arguments s).1
    ∧ (p.prepareBy run' arguments s).2.1 = (p.prepareBy run arguments s).2.1
    ∧ (p.prepareBy run' arguments s).2.2.memory = (p.prepareBy run arguments s).2.2.memory := by
  cases hname : (Text.trim p.name).isEmpty with
  | true => simp [prepareBy, hname]
  | false =>
    cases hbind : p.definition.bind arguments with
    | error e => simp [prepareBy, hname, hbind]
    | ok bound =>
      cases hslot : s.world.slot with
      | some active =>
        have hnext : s.nextId.2.world.slot = some active := hslot
        simp [prepareBy, hname, hbind, hnext, Slot.enter]
      | none =>
        obtain ⟨hresult, halike⟩ := h bound
        rw [prepareBy_of_bind hname hslot hbind, prepareBy_of_bind hname hslot hbind]
        refine ⟨congrArg (Except.map _) hresult, ?_, halike.memory⟩
        rw [closing, closing, hresult, halike.graph]

namespace Workflow

/-- What the entrypoint returns that runs aside, if the arguments fit. -/
def valueAside (flow : Workflow σ) (p : Pipeline) (arguments : Dict Json) (s : Session σ) :
    Except Error Json :=
  (p.definition.bind arguments).bind fun bound => ((flow.entry bound).run (p.aside s)).1

/-- A pipeline is prepared with the graph that its entrypoint leaves, if it has a name, no pipeline is
active, the arguments fit and the entrypoint succeeds, and not otherwise. -/
theorem prepare_graph_iff (flow : Workflow σ) (p : Pipeline) (arguments : Dict Json)
    (s : Session σ) (g : Graph) :
    (flow.prepare arguments p s).1 = .ok () ∧ (flow.prepare arguments p s).2.1.graph = some g ↔
      (Text.trim p.name).isEmpty = false ∧ s.world.slot = none
      ∧ ∃ bound value, p.definition.bind arguments = .ok bound
        ∧ ((flow.entry bound).run (p.opening s)).1 = .ok value
        ∧ ((flow.entry bound).run (p.opening s)).2.graph = g := by
  constructor
  · rintro ⟨hok, hgraph⟩
    have hprepare : p.prepareBy flow.runner arguments s
        = (.ok (), (flow.prepare arguments p s).2) := Prod.ext hok rfl
    obtain ⟨hname, hslot, bound, value, scene, hbind, hrun, hp, -⟩ :=
      Pipeline.prepareBy_eq_ok_iff.1 hprepare
    rw [hp] at hgraph
    refine ⟨hname, hslot, bound, value, hbind, congrArg Prod.fst hrun, ?_⟩
    exact (congrArg (·.2.graph) hrun).trans (Option.some.inj hgraph)
  · rintro ⟨hname, hslot, bound, value, hbind, hok, rfl⟩
    have hprepare : flow.prepare arguments p s = (.ok (), _, _) :=
      Pipeline.prepareBy_eq_ok_iff.2
        ⟨hname, hslot, bound, value, _, hbind, Prod.ext hok rfl, rfl, rfl⟩
    rw [hprepare]
    exact ⟨rfl, rfl⟩

/-- Pipelines that an entrypoint calls for their values, at any depth, add nothing to the pipeline
that is prepared: its graph, its arguments and its value are the same, and so is a failure, if each
such call is replaced by the value that the entrypoint of the callee returns. A call returns just
that value and leaves the pipeline that is called and the active one as they are. And as long as no
identifier is given out twice, no graph of the pass that is prepared takes an artifact from the pass
of a nested call. -/
theorem nested_adds_nothing (flow : Workflow σ) (p : Pipeline) (arguments : Dict Json)
    (s : Session σ) :
    (((flow.inlined p s).prepare arguments p s).1 = (flow.prepare arguments p s).1
      ∧ ((flow.inlined p s).prepare arguments p s).2.1 = (flow.prepare arguments p s).2.1
      ∧ ((flow.inlined p s).prepare arguments p s).2.2.memory
        = (flow.prepare arguments p s).2.2.memory)
    ∧ (∀ g, (flow.prepare arguments p s).1 = .ok ()
        ∧ (flow.prepare arguments p s).2.1.graph = some g ↔
      (Text.trim p.name).isEmpty = false ∧ s.world.slot = none
      ∧ ∃ bound value, p.definition.bind arguments = .ok bound
        ∧ ((flow.entry bound).run (p.opening s)).1 = .ok value
        ∧ ((flow.entry bound).run (p.opening s)).2.graph = g)
    ∧ (∀ bound, ((flow.inlined p s).entry bound).Flat
      ∧ (((flow.inlined p s).entry bound).run (p.opening s)).1
        = ((flow.entry bound).run (p.opening s)).1
      ∧ (((flow.inlined p s).entry bound).run (p.opening s)).2.graph
        = ((flow.entry bound).run (p.opening s)).2.graph)
    ∧ (∀ (callee : Workflow σ) (q : Pipeline) (c : Coordinator) (arguments : Dict Json)
        (t : Session σ),
      (callee.nested arguments q t).1 = callee.valueAside q arguments t
      ∧ (callee.nested arguments q t).2.1 = q
      ∧ (callee.nested arguments q t).2.2.world.slot = t.world.slot
      ∧ (t.world.slot.isSome →
        (callee.call c arguments q t).1 = (callee.valueAside q arguments t).map .nested
        ∧ (callee.call c arguments q t).2.1 = q)
      ∧ (callee.call c arguments q t).2.2.world.slot = t.world.slot)
    ∧ ∀ bound, ((flow.entry bound).run (p.opening s)).2.graph.pass = s.nextId.1
      ∧ (((flow.entry bound).run (p.opening s)).2.session.world.ids.Fresh →
        ∀ (g : Graph) (slot : Slot) (r : InvocationRequest), g.pass = s.nextId.1 →
          ∀ a ∈ r.inputs.values, a.pass ∈ (flow.entry bound).nestedPasses (p.opening s) →
            ∃ e, g.call slot r = .error e) := by
  have hinlined (bound : Dict Json) :
      ((flow.inlined p s).runner bound (p.opening s)).1 = (flow.runner bound (p.opening s)).1
      ∧ (flow.runner bound (p.opening s)).2.Alike
        ((flow.inlined p s).runner bound (p.opening s)).2 :=
    (flow.entry bound).run_inlined rfl ⟨rfl, rfl, rfl⟩
  refine ⟨?_, flow.prepare_graph_iff p arguments s, fun bound => ?_,
    fun callee q c arguments t => ?_,
    fun bound => ⟨?_, fun fresh g slot r hg a ha hpass => ?_⟩⟩
  · rw [prepare, prepare]
    exact Pipeline.prepareBy_congr hinlined
  · obtain ⟨hresult, halike⟩ := hinlined bound
    exact ⟨(flow.entry bound).flat_inlined _ rfl, hresult, halike.graph⟩
  · have hkeeps : callee.runner.KeepsSlot := fun bound c => (callee.entry bound).slot_run c
    have hisolated : callee.runner.Isolated := Program.isolated_entry callee.entry
    have hvalue := Pipeline.result_nestedBy callee.runner q arguments t
    refine ⟨hvalue, rfl, q.slot_nestedBy arguments t hkeeps, fun hslot => ?_,
      q.slot_callBy arguments t hkeeps hisolated c⟩
    rw [call, Pipeline.callBy_of_isSome hslot]
    exact ⟨congrArg (Except.map CallOutcome.nested) hvalue, rfl⟩
  · refine (flow.entry bound).run_graph (P := fun g => g.pass = s.nextId.1) ?_ (p.opening s) rfl
    intro g slot r g' outputs hg hcall
    obtain ⟨-, id, hadd, -⟩ := Graph.call_eq_ok_iff.1 hcall
    obtain ⟨-, rfl⟩ := Graph.add_eq_ok_iff.1 hadd
    exact hg
  · have htook := (flow.entry bound).took_of_mem_nestedPasses (p.opening s) rfl a.pass hpass
    have hsame := (flow.entry bound).isolated_run (p.opening s) rfl
    refine Graph.exists_error_call ha ?_
    rw [hg]
    exact htook.ne_of_fresh hsame fresh

end Workflow

namespace Sample

def sizing : Pipeline := (Pipeline.ofName "sizing").withParameter "rows" (some (.ofNat 100))

/-- Loads, and gives back the number of rows. -/
def sizingEntry (arguments : Dict Json) : Program σ :=
  let rows := (arguments.get? "rows").getD .null
  callStep loader (fun step => { step, parameters := .ofList [("rows", rows)] }) "dataset"
    fun _ => .done (.ok rows)

def failing : Pipeline := .ofName "failing"

/-- Calls another pipeline and fails. -/
def failingEntry (_ : Dict Json) : Program Unit :=
  .call sizing sizingEntry .empty coordinator fun _ =>
  .done (.error (.configuration (.emptyName "Pipeline")))

/-- Loads, calls the pipeline that fails, and gives back the value of another one. -/
def nestingEntry (_ : Dict Json) : Program Unit :=
  .invoke loading fun _ =>
  .nested failing failingEntry .empty fun _ =>
  .nested sizing sizingEntry .empty fun value =>
  .done value

def nesting : Workflow Unit := ⟨training, nestingEntry⟩

theorem nestedPasses_callStep {step : Except Error Step} {request : Step → InvocationRequest}
    {output : String} {next : Artifact → Program σ}
    (hnext : ∀ artifact s, (next artifact).nestedPasses s = []) (s : Scene σ) :
    (callStep step request output next).nestedPasses s = [] := by
  cases step with
  | error e => rfl
  | ok step =>
    simp only [callStep, Program.nestedPasses]
    split
    · rfl
    · exact hnext _ _

/-- Called for its value the pipeline takes one identifier, for its pass. -/
theorem nestedBy_sizing (s : Session σ) :
    sizing.nestedBy (fun bound c => (sizingEntry bound).run c) .empty s
      = (.ok (.ofNat 100), s.nextId.2)
    ∧ sizing.passesBy (fun bound c => (sizingEntry bound).nestedPasses c) .empty s
      = [s.nextId.1] := by
  have hbind : sizing.definition.bind .empty = .ok (.ofList [("rows", .ofNat 100)]) := rfl
  have hcall : (sizing.aside s).graph.call (sizing.aside s).session.world.slot loading
      = .ok (_, .ofOutputs "loader" sizing.name s.nextId.1 loading.step.signature.outputs) :=
    (Graph.Coherent.new _ _ _).call_ok rfl rfl (fun _ ha => absurd ha List.not_mem_nil)
      (fun _ hp => absurd hp List.not_mem_nil) List.not_mem_nil
  have hloader : loader = .ok loading.step := rfl
  have hdataset : StepOutputs.get (.ofOutputs "loader" sizing.name s.nextId.1
      loading.step.signature.outputs) "dataset" = .ok ⟨"loader", "dataset", sizing.name, _⟩ := rfl
  have hrun : ((sizingEntry (.ofList [("rows", .ofNat 100)])).run (sizing.aside s)).1
        = .ok (.ofNat 100)
      ∧ ((sizingEntry (.ofList [("rows", .ofNat 100)])).run (sizing.aside s)).2.session
        = s.nextId.2 := by
    rw [sizingEntry, run_callStep hloader hcall hdataset]
    exact ⟨rfl, rfl⟩
  have hpasses (bound : Dict Json) : (sizingEntry bound).nestedPasses (sizing.aside s) = [] := by
    rw [sizingEntry]
    exact nestedPasses_callStep (fun _ _ => rfl) _
  rw [Pipeline.nestedBy_of_bind hbind, hrun.1, hrun.2, Pipeline.passesBy, hbind]
  exact ⟨rfl, congrArg (s.nextId.1 :: ·) (hpasses _)⟩

/-- The failing pipeline takes one identifier for itself and one for the pipeline that it calls. -/
theorem nestedBy_failing {s : Session Unit} (hslot : s.world.slot.isSome) :
    (failing.nestedBy (fun bound c => (failingEntry bound).run c) .empty s).2 = s.nextId.2.nextId.2
    ∧ failing.passesBy (fun bound c => (failingEntry bound).nestedPasses c) .empty s
      = [s.nextId.1, s.nextId.2.nextId.1] := by
  have hbind : failing.definition.bind .empty = .ok .empty := rfl
  have hnext : (failing.aside s).session.world.slot.isSome := hslot
  rw [Pipeline.nestedBy_of_bind hbind, Pipeline.passesBy, hbind]
  simp only [failingEntry, Program.run, Program.nestedPasses, Pipeline.callBy_of_isSome hnext,
    nestedBy_sizing]
  exact ⟨rfl, rfl⟩

/-- The value is that of the pipeline that is called last. -/
theorem run_nestingEntry (bound : Dict Json) : (nestingEntry bound).run start
    = (.ok (.ofNat 100), { session := start.session.nextId.2.nextId.2.nextId.2, graph := loaded })
    ∧ (nestingEntry bound).nestedPasses start = [start.session.nextId.1,
      start.session.nextId.2.nextId.1, start.session.nextId.2.nextId.2.nextId.1] := by
  have hslot : start.session.world.slot.isSome := rfl
  obtain ⟨hfailing, hpasses⟩ := nestedBy_failing hslot
  simp only [nestingEntry, Program.run, Program.nestedPasses, Scene.afterCall, call_loading,
    nestedBy_sizing, hfailing, hpasses, true_and]
  rfl

/-- The graph has the step that the entrypoint calls itself, and refuses the artifacts of the three
nested calls, of which the last one returns the number of rows. -/
theorem nested_adds_nothing_training :
    ((nestingEntry .empty).run start).2.session.world.ids.Fresh
    ∧ ((nestingEntry .empty).nestedPasses start).length = 3
    ∧ ((nesting.inlined training openSession).prepare .empty training openSession).2.1.graph.map
        (·.ids) = some ["loader"]
    ∧ (⟨sizing, sizingEntry⟩ : Workflow Unit).valueAside sizing .empty start.session
      = .ok (.ofNat 100)
    ∧ ∀ slot r, ∀ a ∈ r.inputs.values, a.pass ∈ (nestingEntry .empty).nestedPasses start →
        ∃ e, loaded.call slot r = .error e := by
  obtain ⟨⟨-, hpipeline, -⟩, hprepared, -, hnested, hforeign⟩ :=
    nesting.nested_adds_nothing training .empty openSession
  obtain ⟨hrun, -⟩ := run_nestingEntry (.ofList [("rows", .ofNat 100)])
  obtain ⟨-, hgraph⟩ := (hprepared loaded).2
    ⟨by decide +kernel, rfl, _, .ofNat 100, rfl, congrArg Prod.fst hrun, congrArg (·.2.graph) hrun⟩
  obtain ⟨hvalue, -⟩ := hnested ⟨sizing, sizingEntry⟩ sizing coordinator .empty start.session
  obtain ⟨hsizing, -⟩ := nestedBy_sizing start.session
  obtain ⟨hrun, hpasses⟩ := run_nestingEntry .empty
  have fresh : ((nestingEntry .empty).run start).2.session.world.ids.Fresh := by
    rw [hrun]
    exact Supply.fresh_ofNat (by decide)
  refine ⟨fresh, ?_, ?_, ?_, fun slot r => (hforeign .empty).2 fresh loaded slot r rfl⟩
  · rw [hpasses]
    rfl
  · rw [hpipeline, hgraph]
    rfl
  · exact hvalue.symm.trans (congrArg Prod.fst hsizing)

end Sample

end Pipework
