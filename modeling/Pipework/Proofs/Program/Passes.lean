import Mathlib.GroupTheory.GroupAction.MultipleTransitivity
import Pipework.Proofs.Dispatch.Integrity
import Pipework.Proofs.Pipeline.Renaming
import Pipework.Proofs.Pipeline.Structure
import Pipework.Proofs.Program.Isolation
import Pipework.Proofs.Traversal

/-!
# Passes do not leak

Preparation passes have random identifiers, which artifacts carry around. An entrypoint that does
the same whatever they are is prepared to the same graph, up to a renaming of passes. The proof runs
it twice and keeps the renaming fixed: it maps each identifier that the one preparation takes to the
one that the other takes instead of it.
-/

namespace Pipework

variable {σ : Type}

/-! ## Entrypoints -/

/-- Two programs that do the same, except that all artifacts are renamed: those that they get from
calls as well as those that they give to calls. Memories are in relation to each other whenever one
is read or written. -/
inductive Program.Alike (π : Equiv.Perm Uuid) (M : σ → σ → Prop) :
    Program σ → Program σ → Prop where
  | done (result : Except Error Json) : Alike π M (.done result) (.done result)
  | read {next next' : σ → Program σ} (h : ∀ m m', M m m' → Alike π M (next m) (next' m')) :
      Alike π M (.read next) (.read next')
  | write {m m' : σ} {next next' : Program σ} (memory : M m m') (h : Alike π M next next') :
      Alike π M (.write m next) (.write m' next')
  | inspect {next next' : PassView → Program σ} (h : ∀ view, Alike π M (next view) (next' view)) :
      Alike π M (.inspect next) (.inspect next')
  | invoke (request : InvocationRequest) {next next' : Except Error StepOutputs → Program σ}
      (h : ∀ result, Alike π M (next result) (next' (result.map (.rename π)))) :
      Alike π M (.invoke request next) (.invoke (request.rename π) next')
  | nested {callee callee' : Pipeline} {entry entry' : Dict Json → Program σ}
      (arguments : Dict Json) {next next' : Except Error Json → Program σ}
      (definition : callee'.definition = callee.definition)
      (entries : ∀ bound, Alike π M (entry bound) (entry' bound))
      (h : ∀ result, Alike π M (next result) (next' result)) :
      Alike π M (.nested callee entry arguments next) (.nested callee' entry' arguments next')
  | prepare {callee callee' : Pipeline} {entry entry' : Dict Json → Program σ}
      (arguments : Dict Json) {next next' : Except Error Unit → Program σ}
      (definition : callee'.definition = callee.definition)
      (entries : ∀ bound, Alike π M (entry bound) (entry' bound))
      (h : ∀ result, Alike π M (next result) (next' result)) :
      Alike π M (.prepare callee entry arguments next) (.prepare callee' entry' arguments next')
  | call {callee callee' : Pipeline} {entry entry' : Dict Json → Program σ}
      (arguments : Dict Json) (coordinator : Coordinator)
      {next next' : Except Error CallOutcome → Program σ}
      (definition : callee'.definition = callee.definition)
      (entries : ∀ bound, Alike π M (entry bound) (entry' bound))
      (h : ∀ result : Except Error Json,
        Alike π M (next (result.map .nested)) (next' (result.map .nested))) :
      Alike π M (.call callee entry arguments coordinator next)
        (.call callee' entry' arguments coordinator next')

/-- Entrypoints that are functions of their arguments: under other passes they do the same with the
artifacts of these. They may use the memory as well, in as far as it makes no difference to them
which of all memories in relation to each other they find. -/
def Workflow.Parametric (flow : Workflow σ) (M : Equiv.Perm Uuid → σ → σ → Prop) : Prop :=
  ∀ (π : Equiv.Perm Uuid) (bound : Dict Json), (flow.entry bound).Alike π (M π) (flow.entry bound)

/-! ## Sessions -/

/-- A permutation that maps the next identifiers of a supply to those of another one. -/
structure Renaming where
  perm : Equiv.Perm Uuid
  left : Supply
  right : Supply
  /-- How many identifiers are mapped. -/
  count : Nat
  agree : ∀ k < count, right.sequence (right.used + k) = perm (left.sequence (left.used + k))

/-- Identifiers that are given out earlier are fresh too. -/
theorem Supply.Fresh.of_le {s : Supply} {k n : Nat} (h : (s.after n).Fresh) (hk : k ≤ n) :
    (s.after k).Fresh := by
  intro i hi j hj hij
  have hle : (s.after k).used ≤ (s.after n).used := Nat.add_le_add_left hk _
  exact h i (hi.trans_le hle) j (hj.trans_le hle) hij

/-- There is a permutation for as many identifiers as are different in both supplies. -/
theorem exists_renaming {left right : Supply} {n : Nat} (hleft : (left.after n).Fresh)
    (hright : (right.after n).Fresh) :
    ∃ R : Renaming, R.left = left ∧ R.right = right ∧ R.count = n := by
  have injective {s : Supply} (h : (s.after n).Fresh) :
      Function.Injective fun i : Fin n => s.sequence (s.used + i) := by
    intro i j hij
    have hsame := h (s.used + i) (Nat.add_lt_add_left i.isLt _) (s.used + j)
      (Nat.add_lt_add_left j.isLt _) hij
    omega
  obtain ⟨π, hπ⟩ := Equiv.Perm.exists_extending_pair _ _ (injective hleft) (injective hright)
  exact ⟨⟨π, left, right, n, fun k hk => (hπ ⟨k, hk⟩).symm⟩, rfl, rfl, rfl⟩

namespace Renaming

variable (R : Renaming) (M : σ → σ → Prop)

/-- Sessions that have taken the same number of identifiers, and agree in what entrypoints see. -/
structure Sessions (s s' : Session σ) : Prop where
  memory : M s.memory s'.memory
  slot : s'.world.slot = s.world.slot.rename R.perm
  ids : ∃ k, s.world.ids = R.left.after k ∧ s'.world.ids = R.right.after k

structure Scenes (c c' : Scene σ) : Prop where
  sessions : R.Sessions M c.session c'.session
  graph : c'.graph = c.graph.rename R.perm

/-- Whether one of two sessions has taken only identifiers that are mapped. -/
def Covers (s s' : Session σ) : Prop :=
  s.world.ids.used ≤ R.left.used + R.count ∨ s'.world.ids.used ≤ R.right.used + R.count

/-- Ways to run an entrypoint that lead to the same results, as long as the identifiers last. -/
def Runners (run run' : Runner σ) : Prop :=
  ∀ (bound : Dict Json) (c c' : Scene σ), c.session.world.slot.isSome → R.Scenes M c c' →
    R.Covers (run bound c).2.session (run' bound c').2.session →
    (run' bound c').1 = (run bound c).1 ∧ R.Scenes M (run bound c).2 (run' bound c').2

variable {R M} {s s' t t' : Session σ} {c c' : Scene σ}

theorem Covers.mono (h : R.Covers t t') (hs : s.SameButIds t) (hs' : s'.SameButIds t') :
    R.Covers s s' := by
  obtain ⟨n, hn⟩ := hs
  obtain ⟨m, hm⟩ := hs'
  rw [Covers, hn, hm] at h
  simp only [Supply.after] at h
  rw [Covers]
  omega

namespace Sessions

theorem nextId (h : R.Sessions M s s') : R.Sessions M s.nextId.2 s'.nextId.2 where
  memory := h.memory
  slot := h.slot
  ids := by
    obtain ⟨k, hleft, hright⟩ := h.ids
    exact ⟨k + 1, congrArg (·.next.2) hleft, congrArg (·.next.2) hright⟩

/-- The next identifiers are mapped to each other. -/
theorem nextId_eq (h : R.Sessions M s s') (hcovers : R.Covers s.nextId.2 s'.nextId.2) :
    s'.nextId.1 = R.perm s.nextId.1 := by
  obtain ⟨k, hleft, hright⟩ := h.ids
  have hk : k < R.count := by
    simp only [Covers, Session.nextId, Session.withWorld, World.nextId, Supply.next, hleft, hright,
      Supply.after] at hcovers
    omega
  simp only [Session.nextId, World.nextId, Supply.next, hleft, hright]
  exact R.agree k hk

theorem withSlot (h : R.Sessions M s s') {slot slot' : Slot} (hslot : slot' = slot.rename R.perm) :
    R.Sessions M (s.withSlot slot) (s'.withSlot slot') where
  memory := h.memory
  slot := hslot
  ids := h.ids

theorem isSome_slot (h : R.Sessions M s s') : s'.world.slot.isSome = s.world.slot.isSome := by
  rw [h.slot, Slot.isSome_rename]

theorem active_eq (h : R.Sessions M s s') :
    s'.world.slot.map (·.pipeline) = s.world.slot.map (·.pipeline) := by
  rw [h.slot, Slot.rename, Option.map_map]
  rfl

end Sessions

theorem Scenes.view_eq (h : R.Scenes M c c') : c'.view = c.view := by
  simp only [Scene.view, h.sessions.active_eq, h.graph, Graph.pipeline_rename, Graph.size_rename]

end Renaming

/-! ## Pipelines that are called on the way -/

namespace Pipeline

variable {R : Renaming} {M : σ → σ → Prop} {run run' : Runner σ} {s s' : Session σ}
  {p p' : Pipeline} {arguments : Dict Json}

theorem nestedBy_alike (hrun : R.Runners M run run') (hisolated : run.Isolated)
    (hisolated' : run'.Isolated) (hdefinition : p'.definition = p.definition)
    (h : R.Sessions M s s') (hslot : s.world.slot.isSome)
    (hcovers : R.Covers (p.nestedBy run arguments s).2 (p'.nestedBy run' arguments s').2) :
    (p'.nestedBy run' arguments s').1 = (p.nestedBy run arguments s).1
    ∧ R.Sessions M (p.nestedBy run arguments s).2 (p'.nestedBy run' arguments s').2 := by
  have hname : p'.name = p.name := congrArg (·.name) hdefinition
  have hslot' : s'.world.slot.isSome := h.isSome_slot.trans hslot
  cases hbind : p.definition.bind arguments with
  | error e =>
    rw [nestedBy_of_bind_error hbind, nestedBy_of_bind_error (hdefinition ▸ hbind)]
    exact ⟨rfl, h⟩
  | ok bound =>
    rw [nestedBy_of_bind hbind, nestedBy_of_bind (hdefinition ▸ hbind)] at hcovers ⊢
    have hpass : s'.nextId.1 = R.perm s.nextId.1 :=
      h.nextId_eq (hcovers.mono (hisolated bound _ hslot) (hisolated' bound _ hslot'))
    have hscenes : R.Scenes M (p.aside s) (p'.aside s') :=
      ⟨h.nextId, by simp [aside, Graph.rename, hname, hpass]⟩
    obtain ⟨hresult, hafter⟩ := hrun bound _ _ hslot hscenes hcovers
    exact ⟨hresult, hafter.sessions⟩

/-- While a pipeline is active no other one is prepared, whatever its entrypoint is. -/
theorem exists_error_prepareBy (run run' : Runner σ) (arguments : Dict Json)
    (hdefinition : p'.definition = p.definition)
    (hactive : s'.world.slot.map (·.pipeline) = s.world.slot.map (·.pipeline))
    (hslot : s.world.slot.isSome) :
    (∃ e, (p.prepareBy run arguments s).1 = .error e
      ∧ (p'.prepareBy run' arguments s').1 = .error e)
    ∧ ((p.prepareBy run arguments s).2.2 = s ∧ (p'.prepareBy run' arguments s').2.2 = s'
      ∨ (p.prepareBy run arguments s).2.2 = s.nextId.2
        ∧ (p'.prepareBy run' arguments s').2.2 = s'.nextId.2) := by
  obtain ⟨active, hs⟩ := Option.isSome_iff_exists.1 hslot
  rw [hs, Option.map_some, Option.map_eq_some_iff] at hactive
  obtain ⟨active', hs', hsame⟩ := hactive
  have hname : p'.name = p.name := congrArg (·.name) hdefinition
  have hnext : s.nextId.2.world.slot = some active := hs
  have hnext' : s'.nextId.2.world.slot = some active' := hs'
  simp only [prepareBy, hname, hdefinition]
  split
  · simp
  · cases p.definition.bind arguments with
    | error e => simp
    | ok bound => simp [hnext, hnext', hsame, Slot.enter, name]

theorem prepareBy_alike_of_isSome (hdefinition : p'.definition = p.definition)
    (h : R.Sessions M s s') (hslot : s.world.slot.isSome) :
    (p'.prepareBy run' arguments s').1 = (p.prepareBy run arguments s).1
    ∧ R.Sessions M (p.prepareBy run arguments s).2.2 (p'.prepareBy run' arguments s').2.2 := by
  obtain ⟨⟨e, herror, herror'⟩, hsessions⟩ :=
    exists_error_prepareBy run run' arguments hdefinition h.active_eq hslot
  refine ⟨herror'.trans herror.symm, ?_⟩
  rcases hsessions with ⟨hsame, hsame'⟩ | ⟨hsame, hsame'⟩
  all_goals rw [hsame, hsame']
  · exact h
  · exact h.nextId

end Pipeline

/-! ## Two runs -/

namespace Program

variable {R : Renaming} {M : σ → σ → Prop}

theorem isolated_entry (entry : Dict Json → Program σ) :
    Runner.Isolated fun bound s => (entry bound).run s := fun bound => (entry bound).isolated_run

theorem run_prepare (callee : Pipeline) (entry : Dict Json → Program σ) (arguments : Dict Json)
    (next : Except Error Unit → Program σ) (c : Scene σ) :
    (Program.prepare callee entry arguments next).run c
      = (next (callee.prepareBy (fun bound s => (entry bound).run s) arguments c.session).1).run
        { c with session :=
          (callee.prepareBy (fun bound s => (entry bound).run s) arguments c.session).2.2 } := by
  rw [Program.run]

/-- A program goes on after it has called another pipeline, if that has ended alike in both runs. -/
theorem resume {α : Type} {a a' : α} (next next' : α → Program σ) {c c' : Scene σ}
    {t t' : Session σ} (hslot : c.session.world.slot.isSome) (hscenes : R.Scenes M c c')
    (hsame : c.session.SameButIds t) (hsame' : c'.session.SameButIds t')
    (hcallee : R.Covers t t' → a' = a ∧ R.Sessions M t t')
    (hcovers : R.Covers ((next a).run { c with session := t }).2.session
      ((next' a').run { c' with session := t' }).2.session)
    (hnext : ∀ {c c' : Scene σ}, c.session.world.slot.isSome → R.Scenes M c c' →
      R.Covers ((next a).run c).2.session ((next' a).run c').2.session →
        ((next' a).run c').1 = ((next a).run c).1
        ∧ R.Scenes M ((next a).run c).2 ((next' a).run c').2) :
    ((next' a').run { c' with session := t' }).1 = ((next a).run { c with session := t }).1
    ∧ R.Scenes M ((next a).run { c with session := t }).2
      ((next' a').run { c' with session := t' }).2 := by
  have hslot' : c'.session.world.slot.isSome := hscenes.sessions.isSome_slot.trans hslot
  have hafter : t.world.slot.isSome := by rwa [hsame.slot_eq]
  have hafter' : t'.world.slot.isSome := by rwa [hsame'.slot_eq]
  obtain ⟨rfl, hsessions⟩ := hcallee
    (hcovers.mono ((next a).isolated_run _ hafter) ((next' a').isolated_run _ hafter'))
  exact hnext hafter ⟨hsessions, hscenes.graph⟩ hcovers

/-- Programs that do the same have the same result, and what they leave behind is the same up to the
renaming. -/
theorem Alike.run {P P' : Program σ} (h : P.Alike R.perm M P') {c c' : Scene σ}
    (hslot : c.session.world.slot.isSome) (hscenes : R.Scenes M c c')
    (hcovers : R.Covers (P.run c).2.session (P'.run c').2.session) :
    (P'.run c').1 = (P.run c).1 ∧ R.Scenes M (P.run c).2 (P'.run c').2 := by
  induction h generalizing c c' with
  | done result => exact ⟨rfl, hscenes⟩
  | read _ ih => exact ih _ _ hscenes.sessions.memory hslot hscenes hcovers
  | write memory _ ih =>
    exact ih hslot ⟨⟨memory, hscenes.sessions.slot, hscenes.sessions.ids⟩, hscenes.graph⟩ hcovers
  | inspect _ ih =>
    simp only [Program.run, hscenes.view_eq] at hcovers ⊢
    exact ih _ hslot hscenes hcovers
  | invoke request _ ih =>
    have hcall := c.graph.call_rename (π := R.perm) c.session.world.slot request
    rw [← hscenes.graph, ← hscenes.sessions.slot] at hcall
    simp only [Program.run, hcall] at hcovers ⊢
    generalize c.graph.call c.session.world.slot request = outcome at hcovers ⊢
    cases outcome with
    | error e => exact ih (.error e) hslot hscenes hcovers
    | ok outcome => exact ih (.ok outcome.2) hslot ⟨hscenes.sessions, rfl⟩ hcovers
  -- The entrypoint of a callee runs on a graph of its own, in sessions that are still alike.
  | @nested callee callee' entry entry' arguments next next' definition _ _ ihEntries ih =>
    have hslot' : c'.session.world.slot.isSome := hscenes.sessions.isSome_slot.trans hslot
    simp only [Program.run] at hcovers ⊢
    exact resume next next' hslot hscenes
      (callee.sameButIds_nestedBy arguments (isolated_entry entry) hslot)
      (callee'.sameButIds_nestedBy arguments (isolated_entry entry') hslot')
      (Pipeline.nestedBy_alike (fun bound _ _ => ihEntries bound) (isolated_entry entry)
        (isolated_entry entry') definition hscenes.sessions hslot) hcovers (ih _)
  | @prepare callee callee' entry entry' arguments next next' definition _ _ _ ih =>
    rw [run_prepare, run_prepare] at hcovers ⊢
    exact resume next next' hslot hscenes
      (callee.sameButIds_prepareBy arguments (isolated_entry entry))
      (callee'.sameButIds_prepareBy arguments (isolated_entry entry'))
      (fun _ => Pipeline.prepareBy_alike_of_isSome definition hscenes.sessions hslot) hcovers (ih _)
  | @call callee callee' entry entry' arguments coordinator next next' definition _ _ ihEntries
      ih =>
    have hslot' : c'.session.world.slot.isSome := hscenes.sessions.isSome_slot.trans hslot
    simp only [Program.run, Pipeline.callBy_of_isSome hslot,
      Pipeline.callBy_of_isSome hslot'] at hcovers ⊢
    exact resume (fun result => next (result.map .nested))
      (fun result => next' (result.map .nested)) hslot hscenes
      (callee.sameButIds_nestedBy arguments (isolated_entry entry) hslot)
      (callee'.sameButIds_nestedBy arguments (isolated_entry entry') hslot')
      (Pipeline.nestedBy_alike (fun bound _ _ => ihEntries bound) (isolated_entry entry)
        (isolated_entry entry') definition hscenes.sessions hslot) hcovers (ih _)

end Program

/-! ## Two preparations -/

namespace Pipeline

variable {R : Renaming} {M : σ → σ → Prop} {run run' : Runner σ} {s s' : Session σ}
  {p p' : Pipeline} {arguments bound : Dict Json}

/-- The pipeline after its entrypoint. -/
def closing (p : Pipeline) (bound : Dict Json) (outcome : Except Error Json × Scene σ) : Pipeline :=
  match outcome.1 with
  | .error _ => { p with graph := none }
  | .ok _ => { p with graph := some outcome.2.graph, arguments := bound }

/-- A preparation that gets as far as the entrypoint. -/
theorem prepareBy_of_bind (hname : (Text.trim p.name).isEmpty = false)
    (hslot : s.world.slot = none) (hbind : p.definition.bind arguments = .ok bound) :
    p.prepareBy run arguments s =
      ((run bound (p.opening s)).1.map fun _ => (), p.closing bound (run bound (p.opening s)),
        (run bound (p.opening s)).2.session.withSlot
          ((run bound (p.opening s)).2.session.world.slot.leave s.nextId.1)) := by
  have hnext : s.nextId.2.world.slot = none := hslot
  rw [prepareBy, hname]
  simp only [Bool.false_eq_true, if_false, hbind, hnext, Slot.enter, opening, name]
  generalize run bound _ = outcome
  obtain ⟨e | result, scene⟩ := outcome <;> rfl

/-- Where no pipeline is active, both preparations come to the same end. -/
theorem prepareBy_alike (hrun : R.Runners M run run') (hisolated : run.Isolated)
    (hisolated' : run'.Isolated) (hdefinition : p'.definition = p.definition)
    (hconfiguration : p'.configuration = p.configuration) (h : R.Sessions M s s')
    (hslot : s.world.slot = none)
    (hcovers : R.Covers (p.prepareBy run arguments s).2.2 (p'.prepareBy run' arguments s').2.2) :
    (p'.prepareBy run' arguments s').1 = (p.prepareBy run arguments s).1
    ∧ ((p.prepareBy run arguments s).1 = .ok () →
      (p.prepareBy run arguments s).2.1.Renamed R.perm (p'.prepareBy run' arguments s').2.1) := by
  have hslot' : s'.world.slot = none := by
    rw [h.slot, hslot]
    rfl
  have hname' : p'.name = p.name := congrArg (·.name) hdefinition
  cases hname : (Text.trim p.name).isEmpty with
  | true => simp [prepareBy, hname, hname']
  | false =>
    cases hbind : p.definition.bind arguments with
    | error e => simp [prepareBy, hname, hname', hbind, hdefinition]
    | ok bound =>
      rw [prepareBy_of_bind hname hslot hbind, prepareBy_of_bind (by rw [hname', hname]) hslot'
        (by rw [hdefinition, hbind])] at hcovers ⊢
      have hclosed : R.Covers (run bound (p.opening s)).2.session
          (run' bound (p'.opening s')).2.session := hcovers
      have hentered : R.Covers (p.opening s).session (p'.opening s').session :=
        hclosed.mono (hisolated bound _ rfl) (hisolated' bound _ rfl)
      have hpass : s'.nextId.1 = R.perm s.nextId.1 := h.nextId_eq hentered
      have hscenes : R.Scenes M (p.opening s) (p'.opening s') := by
        refine ⟨h.nextId.withSlot ?_, ?_⟩
        · simp [Slot.rename, Activation.rename, hpass, hname']
        · simp [opening, Graph.rename, hpass, hname']
      obtain ⟨hresult, hafter⟩ := hrun bound _ _ rfl hscenes hclosed
      dsimp only
      rw [hresult]
      refine ⟨rfl, fun hok => ?_⟩
      obtain ⟨value, hvalue, -⟩ := map_eq_ok_iff.1 hok
      rw [closing, closing, hresult, hvalue]
      exact ⟨hdefinition, hconfiguration, rfl, congrArg some hafter.graph⟩

end Pipeline

namespace Workflow

variable {flow : Workflow σ} {M : Equiv.Perm Uuid → σ → σ → Prop} {p p' : Pipeline}
  {s s' : Session σ}

/-- However the passes are called, as long as no two have the same name: a pipeline is prepared
either way or fails with the same error, and what it compiles to is the same, with the same version
hash and the same cache keys. -/
theorem prepare_independent (hparametric : flow.Parametric M)
    (hmemory : ∀ π, M π s.memory s'.memory)
    (hslot : s'.world.slot.map (·.pipeline) = s.world.slot.map (·.pipeline))
    (hdefinition : p'.definition = p.definition)
    (hconfiguration : p'.configuration = p.configuration) (arguments : Dict Json)
    (fresh : (flow.prepare arguments p s).2.2.world.ids.Fresh)
    (fresh' : (flow.prepare arguments p' s').2.2.world.ids.Fresh) :
    (flow.prepare arguments p' s').1 = (flow.prepare arguments p s).1
    ∧ ((flow.prepare arguments p s).1 = .ok () →
      (flow.prepare arguments p s).2.1.Interchangeable (flow.prepare arguments p' s').2.1) := by
  have hisolated : Runner.Isolated flow.runner := Program.isolated_entry flow.entry
  simp only [prepare] at fresh fresh' ⊢
  cases hempty : s.world.slot with
  | some active =>
    obtain ⟨⟨e, herror, herror'⟩, -⟩ := Pipeline.exists_error_prepareBy flow.runner flow.runner
      arguments hdefinition hslot (by rw [hempty]; rfl)
    refine ⟨herror'.trans herror.symm, fun hok => ?_⟩
    cases herror.symm.trans hok
  | none =>
    -- The one of the two that takes fewer identifiers tells how many have to be mapped.
    obtain ⟨n, hn⟩ := p.sameButIds_prepareBy (s := s) arguments hisolated
    obtain ⟨m, hm⟩ := p'.sameButIds_prepareBy (s := s') arguments hisolated
    rw [hn] at fresh
    rw [hm] at fresh'
    obtain ⟨R, hleft, hright, hcount⟩ := exists_renaming
      (Supply.Fresh.of_le fresh (min_le_left n m)) (Supply.Fresh.of_le fresh' (min_le_right n m))
    have hempty' : s'.world.slot = none := by
      rw [hempty, Option.map_none, Option.map_eq_none_iff] at hslot
      exact hslot
    have hsessions : R.Sessions (M R.perm) s s' :=
      ⟨hmemory R.perm, by rw [hempty, hempty']; rfl, 0, by rw [hleft]; rfl, by rw [hright]; rfl⟩
    have hcovers : R.Covers (p.prepareBy flow.runner arguments s).2.2
        (p'.prepareBy flow.runner arguments s').2.2 := by
      rw [Renaming.Covers, hn, hm, hleft, hright, hcount]
      simp only [Supply.after]
      omega
    have hrun : R.Runners (M R.perm) flow.runner flow.runner := fun bound _ _ =>
      (hparametric R.perm bound).run
    obtain ⟨hresult, hrenamed⟩ := Pipeline.prepareBy_alike hrun hisolated hisolated hdefinition
      hconfiguration hsessions hempty hcovers
    exact ⟨hresult, fun hok => (hrenamed hok).interchangeable⟩

end Workflow

namespace Sample

variable {π : Equiv.Perm Uuid} {M : σ → σ → Prop}

theorem alike_callStep {step : Except Error Step} {request request' : Step → InvocationRequest}
    {output : String} {next next' : Artifact → Program σ}
    (hrequest : ∀ step, request' step = (request step).rename π)
    (hnext : ∀ artifact, (next artifact).Alike π M (next' (artifact.rename π))) :
    (callStep step request output next).Alike π M (callStep step request' output next') := by
  cases step with
  | error e => exact .done _
  | ok step =>
    simp only [callStep, hrequest]
    refine .invoke _ fun result => ?_
    cases result with
    | error e => exact .done _
    | ok outputs =>
      simp only [Except.map, Except.bind, StepOutputs.get_rename]
      cases outputs.get output with
      | error e => exact .done _
      | ok artifact => exact hnext artifact

/-- The entrypoint of the sample pipeline is a function of its arguments. -/
theorem parametric_entry : (⟨training, entry⟩ : Workflow σ).Parametric fun _ _ _ => True := by
  intro π bound
  simp only [entry]
  refine alike_callStep (fun step => rfl) fun dataset => ?_
  refine alike_callStep (fun step => ?_) fun model => ?_
  · simp [InvocationRequest.rename]
  refine alike_callStep (fun step => ?_) fun metrics => .done _
  simp [InvocationRequest.rename]

theorem session_callStep {step : Except Error Step} {request : Step → InvocationRequest}
    {output : String} {next : Artifact → Program σ}
    (hnext : ∀ artifact s, ((next artifact).run s).2.session = s.session) (s : Scene σ) :
    ((callStep step request output next).run s).2.session = s.session := by
  cases step with
  | error e => rfl
  | ok step =>
    simp only [callStep, Program.run]
    split
    · simp only [Except.bind]
      split
      · rfl
      · exact hnext _ _
    · rfl

/-- The entrypoint calls steps only. -/
theorem session_entry (bound : Dict Json) (s : Scene σ) :
    ((entry bound).run s).2.session = s.session := by
  rw [entry]
  exact session_callStep
    (fun _ => session_callStep fun _ => session_callStep fun _ _ => rfl) s

/-- A preparation of the sample pipeline takes one identifier. -/
theorem ids_prepare {p : Pipeline} (h : p.definition = training.definition) {s : Session σ}
    (hslot : s.world.slot = none) :
    ((⟨training, entry⟩ : Workflow σ).prepare .empty p s).2.2.world.ids = s.world.ids.after 1 := by
  have hname : (Text.trim p.name).isEmpty = false := by
    rw [Pipeline.name, h]
    decide +kernel
  have hbind : p.definition.bind .empty = .ok (.ofList [("rows", .ofNat 100)]) := by
    rw [h]
    rfl
  rw [Workflow.prepare, Pipeline.prepareBy_of_bind hname hslot hbind]
  exact congrArg (·.world.ids) (session_entry _ (p.opening s))

/-- Prepared once more under another pass, the sample pipeline keeps its identity. -/
theorem prepare_independent_training :
    ∃ s, (⟨training, entry⟩ : Workflow Unit).Parametric (fun _ _ _ => True)
      ∧ (⟨training, entry⟩ : Workflow Unit).prepare .empty training s
        = (.ok (), prepared, preparedSession)
      ∧ preparedSession.nextId.1 ≠ s.nextId.1
      ∧ ((⟨training, entry⟩ : Workflow Unit).prepare .empty prepared preparedSession).1 = .ok ()
      ∧ prepared.Interchangeable
        ((⟨training, entry⟩ : Workflow Unit).prepare .empty prepared preparedSession).2.1 := by
  have hactive : preparedSession.world.slot.map (·.pipeline)
      = ({ world := .initial, memory := () } : Session Unit).world.slot.map (·.pipeline) := rfl
  have hdefinition : prepared.definition = training.definition := rfl
  have hconfiguration : prepared.configuration = training.configuration := rfl
  have fresh : ((⟨training, entry⟩ : Workflow Unit).prepare .empty training
      { world := .initial, memory := () }).2.2.world.ids.Fresh := by
    rw [ids_prepare rfl rfl]
    exact Supply.fresh_ofNat (by decide)
  have fresh' : ((⟨training, entry⟩ : Workflow Unit).prepare .empty prepared
      preparedSession).2.2.world.ids.Fresh := by
    rw [ids_prepare hdefinition rfl]
    exact Supply.fresh_ofNat (by decide)
  obtain ⟨hresult, hidentity⟩ := Workflow.prepare_independent parametric_entry (fun _ => trivial)
    hactive hdefinition hconfiguration .empty fresh fresh'
  rw [prepare_training] at hresult hidentity
  exact ⟨_, parametric_entry, prepare_training, by decide, hresult, hidentity rfl⟩

end Sample

end Pipework
