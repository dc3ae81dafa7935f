import Pipework.Proofs.Dispatch.History
import Pipework.Proofs.Program.Passes

/-!
# The state after a preparation

A preparation drops the graph of before and can then end in four ways, of which one leaves a new
graph. Whichever it is and whatever the entrypoint does, the pipeline is prepared if and only if the
preparation succeeded, nothing else of it has changed but its arguments, and the active pipeline is
the one of before (`Workflow.consistent_prepare`). Only a pipeline without a name keeps its graph
when it fails, and it never has one.
-/

namespace Pipework

variable {σ : Type}

/-! ## Arguments -/

namespace PipelineDefinition

variable {d : PipelineDefinition} {arguments bound : Dict Json}

theorem bind_eq_ok_iff : d.bind arguments = .ok bound ↔
    arguments.firstUnknown? d.parameters = none
      ∧ arguments.withDefaults d.parameters = .ok bound := by
  rw [bind]
  cases arguments.firstUnknown? d.parameters with
  | some name => simp
  | none => cases arguments.withDefaults d.parameters <;> simp

/-- Arguments fit if and only if each is declared and none is missing that has no default. -/
theorem exists_bind_iff : (∃ bound, d.bind arguments = .ok bound) ↔
    (∀ name ∈ arguments.keys, name ∈ d.parameters.keys)
      ∧ ∀ name, d.parameters.get? name = some none → name ∈ arguments.keys := by
  rw [← Dict.firstUnknown?_eq_none_iff, ← Dict.exists_withDefaults_iff]
  simp only [bind_eq_ok_iff, exists_and_left]

end PipelineDefinition

/-! ## Outcomes -/

namespace Pipeline

variable {run : Runner σ} {p : Pipeline} {arguments : Dict Json} {s : Session σ}

/-- What a preparation can come to: with the arguments, the active pipeline or the entrypoint
against it, the graph of before is gone. -/
inductive Preparation (run : Runner σ) (p : Pipeline) (arguments : Dict Json) (s : Session σ) :
    Except Error Unit × Pipeline × Session σ → Prop where
  | unnamed (hname : (Text.trim p.name).isEmpty = true) :
      Preparation run p arguments s (.error (.configuration (.emptyName "Pipeline")), p, s)
  | unbound {e : Error} (hname : (Text.trim p.name).isEmpty = false)
      (hbind : p.definition.bind arguments = .error e) :
      Preparation run p arguments s (.error e, { p with graph := none }, s)
  | refused {bound : Dict Json} {active : Activation} (hname : (Text.trim p.name).isEmpty = false)
      (hbind : p.definition.bind arguments = .ok bound) (hslot : s.world.slot = some active) :
      Preparation run p arguments s (.error (.graph (.concurrentActivation active.pipeline p.name)),
        { p with graph := none }, s.nextId.2)
  | failed {bound : Dict Json} {e : Error} {scene : Scene σ}
      (hname : (Text.trim p.name).isEmpty = false)
      (hbind : p.definition.bind arguments = .ok bound) (hslot : s.world.slot = none)
      (hrun : run bound (p.opening s) = (.error e, scene)) :
      Preparation run p arguments s (.error e, { p with graph := none },
        scene.session.withSlot (scene.session.world.slot.leave s.nextId.1))
  | succeeded {bound : Dict Json} {value : Json} {scene : Scene σ}
      (hname : (Text.trim p.name).isEmpty = false)
      (hbind : p.definition.bind arguments = .ok bound) (hslot : s.world.slot = none)
      (hrun : run bound (p.opening s) = (.ok value, scene)) :
      Preparation run p arguments s
        (.ok (), { p with graph := some scene.graph, arguments := bound },
          scene.session.withSlot (scene.session.world.slot.leave s.nextId.1))

theorem preparation_prepareBy (run : Runner σ) (p : Pipeline) (arguments : Dict Json)
    (s : Session σ) : Preparation run p arguments s (p.prepareBy run arguments s) := by
  cases hname : (Text.trim p.name).isEmpty with
  | true =>
    rw [prepareBy, if_pos hname]
    exact .unnamed hname
  | false =>
    cases hbind : p.definition.bind arguments with
    | error e =>
      have hunbound : p.prepareBy run arguments s = (.error e, { p with graph := none }, s) := by
        simp [prepareBy, hname, hbind]
      rw [hunbound]
      exact .unbound hname hbind
    | ok bound =>
      cases hslot : s.world.slot with
      | some active =>
        have hnext : s.nextId.2.world.slot = some active := hslot
        have hrefused : p.prepareBy run arguments s
            = (.error (.graph (.concurrentActivation active.pipeline p.name)),
              { p with graph := none }, s.nextId.2) := by
          rw [prepareBy, hname]
          simp [hbind, hnext, Slot.enter, name]
        rw [hrefused]
        exact .refused hname hbind hslot
      | none =>
        rw [prepareBy_of_bind hname hslot hbind]
        rcases hrun : run bound (p.opening s) with ⟨e | value, scene⟩
        · exact .failed hname hbind hslot hrun
        · exact .succeeded hname hbind hslot hrun

/-- A pipeline without a name is never prepared. -/
theorem Built.graph_eq_none (h : p.Built) (hname : (Text.trim p.name).isEmpty = true) :
    p.graph = none := by
  induction h with
  | ofName name => rfl
  | withParameter _ _ _ ih | withSource _ _ ih | withSourceCode _ _ ih | withDocstring _ _ ih
  | withOptions _ _ ih => exact ih hname
  | onFailure _ hp ih | onSuccess _ hp ih =>
    obtain ⟨_, -, rfl⟩ := map_eq_ok_iff.1 hp
    exact ih hname
  | configure _ hp ih =>
    rw [Pipeline.configure] at hp
    split at hp
    · obtain ⟨_, -, hp⟩ := bind_eq_ok_iff.1 hp
      cases hp
      exact ih hname
    · cases hp
      exact ih hname
  | @prepare σ p _ run arguments s ih =>
    have hprepared := preparation_prepareBy run p arguments s
    generalize p.prepareBy run arguments s = outcome at hname hprepared ⊢
    cases hprepared with
    | unnamed hblank => exact ih hblank
    | unbound _ _ | refused _ _ _ | failed _ _ _ _ => rfl
    | succeeded hnamed _ _ _ => exact absurd (hname.symm.trans hnamed) Bool.noConfusion

end Pipeline

namespace Workflow

variable {w : Workflow σ} {p p' : Pipeline} {arguments : Dict Json} {s s' : Session σ}
  {result : Except Error Unit}

/-- The graph that an entrypoint leaves behind is the one of its pass. -/
theorem pass_run (w : Workflow σ) (p : Pipeline) (s : Session σ) (bound : Dict Json) :
    ((w.entry bound).run (p.opening s)).2.graph.pass = s.nextId.1 := by
  apply (w.entry bound).run_graph (P := fun g => g.pass = s.nextId.1) ?_ (p.opening s) rfl
  intro g slot r g' outputs hg hcall
  obtain ⟨-, id, hadd, -⟩ := Graph.call_eq_ok_iff.1 hcall
  obtain ⟨-, rfl⟩ := Graph.add_eq_ok_iff.1 hadd
  exact hg

/-- After a preparation the active pipeline is the one of before, and so is all of the pipeline but
its graph and its arguments. A pipeline that could not be prepared is not prepared. One that could
has the graph that its entrypoint has built in this pass, and for exactly the declared parameters
the arguments that were passed or else the defaults. Arguments fit if and only if none is undeclared
and none without a default is missing, and nothing has happened if they do not. -/
theorem consistent_prepare (hp : p.Built) (h : w.prepare arguments p s = (result, p', s')) :
    s'.world.slot = s.world.slot
    ∧ (p'.definition = p.definition ∧ p'.configuration = p.configuration ∧ p'.options = p.options)
    ∧ (∀ e, result = .error e → p'.isPrepared = false)
    ∧ (result = .ok () → ∃ bound value scene, p.definition.bind arguments = .ok bound
        ∧ (w.entry bound).run (p.opening s) = (.ok value, scene)
        ∧ p'.graph = some scene.graph ∧ scene.graph.pass = s.nextId.1
        ∧ p'.arguments.keys = p.definition.parameters.keys
        ∧ ∀ name, p'.arguments.get? name
          = (arguments.get? name).or (p.definition.parameters.get? name).join)
    ∧ ((∃ bound, p.definition.bind arguments = .ok bound) ↔
        (∀ name ∈ arguments.keys, name ∈ p.definition.parameters.keys)
        ∧ ∀ name, p.definition.parameters.get? name = some none → name ∈ arguments.keys)
    ∧ ∀ e, (Text.trim p.name).isEmpty = false → p.definition.bind arguments = .error e →
        result = .error e ∧ s' = s := by
  have hslot : s'.world.slot = s.world.slot := by
    have hsame : s.SameButIds (w.prepare arguments p s).2.2 := sameButIds_prepare arguments
    rw [h] at hsame
    exact hsame.slot_eq
  have hprepared : Pipeline.Preparation w.runner p arguments s (result, p', s') :=
    h ▸ Pipeline.preparation_prepareBy w.runner p arguments s
  refine ⟨hslot, ?_, ?_, ?_, PipelineDefinition.exists_bind_iff, ?_⟩
  · cases hprepared <;> exact ⟨rfl, rfl, rfl⟩
  · rintro e rfl
    cases hprepared with
    | unnamed hblank => simp [Pipeline.isPrepared, hp.graph_eq_none hblank]
    | unbound _ _ | refused _ _ _ | failed _ _ _ _ => rfl
  · rintro rfl
    cases hprepared with
    | @succeeded bound value scene _ hbind _ hrun =>
      obtain ⟨hknown, hfilled⟩ := PipelineDefinition.bind_eq_ok_iff.1 hbind
      have hpass := w.pass_run p s bound
      rw [show (w.entry bound).run (p.opening s) = (.ok value, scene) from hrun] at hpass
      exact ⟨bound, value, scene, hbind, hrun, rfl, hpass, Dict.keys_withDefaults hknown hfilled,
        fun name => Dict.get?_withDefaults hfilled⟩
  · intro e hname hbind
    cases hprepared with
    | unnamed hblank => exact absurd (hblank.symm.trans hname) Bool.noConfusion
    | unbound _ hunbound =>
      cases hbind.symm.trans hunbound
      exact ⟨rfl, rfl⟩
    | refused _ hbound _ | failed _ hbound _ _ | succeeded _ hbound _ _ =>
      cases hbind.symm.trans hbound

end Workflow

namespace Sample

/-- Prepares another copy of the sample pipeline, which fails while this one is active, and fails
with it. -/
def overlappingEntry (_ : Dict Json) : Program Unit :=
  .prepare training entry .empty fun result => .done (result.map fun _ => .null)

def overlapping : Workflow Unit := ⟨training, overlappingEntry⟩

theorem exists_prepare_overlapping : ∃ p s, overlapping.prepare .empty prepared openSession
    = (.error (.graph (.concurrentActivation "training" "training")), p, s) := ⟨_, _, rfl⟩

def trainingFlow : Workflow Unit := ⟨training, entry⟩

/-- Prepared once the sample pipeline has its default argument, and prepared again with an
entrypoint that fails midway it has no graph any more. No pipeline is active after either. With an
argument that is not declared it is not prepared at all. -/
theorem consistent_prepare_training :
    training.Built ∧ prepared.Built
    ∧ trainingFlow.prepare .empty training openSession = (.ok (), prepared, preparedSession)
    ∧ preparedSession.world.slot = none
    ∧ prepared.arguments.get? "rows" = some (.ofNat 100)
    ∧ (∃ p s, overlapping.prepare .empty prepared openSession
        = (.error (.graph (.concurrentActivation "training" "training")), p, s)
      ∧ p.isPrepared = false ∧ p.options = prepared.options ∧ s.world.slot = none)
    ∧ (Text.trim training.name).isEmpty = false
    ∧ ∃ e, training.definition.bind (.ofList [("cols", .ofNat 1)]) = .error e
      ∧ (trainingFlow.prepare (.ofList [("cols", .ofNat 1)]) training openSession).1 = .error e
      ∧ (trainingFlow.prepare (.ofList [("cols", .ofNat 1)]) training openSession).2.2
        = openSession := by
  have hbuilt : training.Built := trainingRun.built
  have hprepare : trainingFlow.prepare .empty training openSession
      = (.ok (), prepared, preparedSession) := prepare_training
  have hname : (Text.trim training.name).isEmpty = false := by decide +kernel
  obtain ⟨hslot, -, -, hsucceeded, -⟩ := Workflow.consistent_prepare hbuilt hprepare
  obtain ⟨bound, value, scene, -, -, -, -, -, hvalues⟩ := hsucceeded rfl
  obtain ⟨p, s, hfailed⟩ := exists_prepare_overlapping
  obtain ⟨hslot', ⟨-, -, hoptions⟩, hunprepared, -⟩ :=
    Workflow.consistent_prepare built_prepared hfailed
  rcases hunfit : trainingFlow.prepare (.ofList [("cols", .ofNat 1)]) training openSession with
    ⟨result, p', s'⟩
  obtain ⟨-, -, -, -, -, hunbound⟩ := Workflow.consistent_prepare hbuilt hunfit
  exact ⟨hbuilt, built_prepared, hprepare, hslot, (hvalues "rows").trans rfl,
    ⟨p, s, hfailed, hunprepared _ rfl, hoptions, hslot'⟩, hname, _, rfl, hunbound _ hname rfl⟩

end Sample

end Pipework
