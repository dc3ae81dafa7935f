import Pipework.Program.Workflow
import Pipework.Proofs.Graph.Coherent

/-!
# Prepared pipelines

An entrypoint changes the graph of its pass only by calling steps, whatever else it does: pipelines
that it prepares or calls on the way work on graphs of their own. So the graph of a prepared
pipeline is coherent. An entrypoint that runs for its value starts from `Pipeline.aside` rather than
from `Pipeline.opening`, and the call returns what it returns (`Pipeline.result_nestedBy`).
-/

namespace Pipework

variable {σ : Type}

namespace Program

/-- A property of graphs that every call of a step keeps is kept by an entrypoint. -/
theorem run_graph {P : Graph → Prop}
    (keep : ∀ (g : Graph) (slot : Slot) (r : InvocationRequest) (g' : Graph)
      (outputs : StepOutputs), P g → g.call slot r = .ok (g', outputs) → P g')
    (program : Program σ) (s : Scene σ) (h : P s.graph) : P (program.run s).2.graph := by
  induction program generalizing s with
  | done result => exact h
  | read next ih => exact ih _ s h
  | write memory next ih => exact ih _ h
  | inspect next ih => exact ih _ s h
  | invoke request next ih =>
    rw [run]
    split
    · rename_i graph outputs hcall
      exact ih _ _ (keep _ _ _ _ _ h hcall)
    · exact ih _ s h
  | nested callee entry arguments next _ ih =>
    rw [run]
    split
    exact ih _ _ h
  | prepare callee entry arguments next _ ih =>
    rw [run]
    split
    exact ih _ _ h
  | call callee entry arguments coordinator next _ ih =>
    rw [run]
    split
    exact ih _ _ h

end Program

namespace Pipeline

/-- Where an entrypoint starts: its pass has entered, and its graph is empty. -/
def opening (p : Pipeline) (s : Session σ) : Scene σ where
  session := s.nextId.2.withSlot (some { pipeline := p.name, pass := s.nextId.1 })
  graph := { pipeline := p.name, pass := s.nextId.1 }

theorem coherent_opening (p : Pipeline) (s : Session σ) : (p.opening s).graph.Coherent :=
  .new p.name s.nextId.1 false

/-- Where an entrypoint starts that runs for its value: on an empty graph, which accepts invocations
without being the active one. -/
def aside (p : Pipeline) (s : Session σ) : Scene σ where
  session := s.nextId.2
  graph := { pipeline := p.name, pass := s.nextId.1, detached := true }

section Nested

variable {run : Runner σ} {p : Pipeline} {arguments bound : Dict Json} {s : Session σ}

theorem nestedBy_of_bind (hbind : p.definition.bind arguments = .ok bound) :
    p.nestedBy run arguments s
      = ((run bound (p.aside s)).1, (run bound (p.aside s)).2.session) := by
  rw [nestedBy, hbind]
  rfl

theorem nestedBy_of_bind_error {e : Error} (hbind : p.definition.bind arguments = .error e) :
    p.nestedBy run arguments s = (.error e, s) := by
  rw [nestedBy, hbind]

/-- A call for a value returns what the entrypoint returns that runs aside, if the arguments fit. -/
theorem result_nestedBy (run : Runner σ) (p : Pipeline) (arguments : Dict Json) (s : Session σ) :
    (p.nestedBy run arguments s).1
      = (p.definition.bind arguments).bind fun bound => (run bound (p.aside s)).1 := by
  cases hbind : p.definition.bind arguments with
  | error e => exact congrArg Prod.fst (nestedBy_of_bind_error hbind)
  | ok bound => exact congrArg Prod.fst (nestedBy_of_bind hbind)

/-- While a pipeline is active another one that is called is called for its value. -/
theorem callBy_of_isSome (hslot : s.world.slot.isSome) (c : Coordinator) :
    p.callBy run arguments c s = ((p.nestedBy run arguments s).1.map .nested, p,
      (p.nestedBy run arguments s).2) := by
  rw [callBy, if_pos hslot]

end Nested

/-- A pipeline is prepared with the graph that its entrypoint leaves behind. -/
theorem prepareBy_eq_ok_iff {run : Runner σ} {p p' : Pipeline} {arguments : Dict Json}
    {s s' : Session σ} :
    p.prepareBy run arguments s = (.ok (), p', s') ↔
      (Text.trim p.name).isEmpty = false ∧ s.world.slot = none
      ∧ ∃ bound result scene, p.definition.bind arguments = .ok bound
        ∧ run bound (p.opening s) = (.ok result, scene)
        ∧ p' = { p with graph := some scene.graph, arguments := bound }
        ∧ s' = scene.session.withSlot (scene.session.world.slot.leave s.nextId.1) := by
  have hslot : s.nextId.2.world.slot = s.world.slot := rfl
  rw [prepareBy]
  cases hname : (Text.trim p.name).isEmpty
  · dsimp only
    rw [hslot]
    rcases p.definition.bind arguments with e | bound
    · simp
    · cases s.world.slot with
      | none =>
        rcases hrun : run bound (p.opening s) with ⟨e | result, scene⟩
        all_goals
          simp only [opening, name] at hrun
          simp [Slot.enter, opening, name, hrun, eq_comm, and_assoc]
      | some active => simp [Slot.enter]
  · simp

end Pipeline

namespace Workflow

variable {w : Workflow σ} {p p' : Pipeline} {arguments : Dict Json} {s s' : Session σ}

/-- What holds of an empty graph and is kept by every call of a step holds of the graph of a
prepared pipeline. -/
theorem exists_graph {P : Graph → Prop} (new : ∀ pipeline pass, P { pipeline, pass })
    (keep : ∀ (g : Graph) (slot : Slot) (r : InvocationRequest) (g' : Graph)
      (outputs : StepOutputs), P g → g.call slot r = .ok (g', outputs) → P g')
    (h : w.prepare arguments p s = (.ok (), p', s')) : ∃ g, p'.graph = some g ∧ P g := by
  obtain ⟨-, -, bound, result, scene, -, hrun, rfl, -⟩ := Pipeline.prepareBy_eq_ok_iff.1 h
  have hgraph := (w.entry bound).run_graph keep (p.opening s) (new p.name s.nextId.1)
  rw [show (w.entry bound).run (p.opening s) = (.ok result, scene) from hrun] at hgraph
  exact ⟨scene.graph, rfl, hgraph⟩

/-- The graph of a prepared pipeline is coherent. -/
theorem exists_coherent_graph (h : w.prepare arguments p s = (.ok (), p', s')) :
    ∃ g, p'.graph = some g ∧ g.Coherent :=
  exists_graph (fun pipeline pass => .new pipeline pass false)
    (fun _ _ _ _ _ hg hcall => hg.call hcall) h

end Workflow

end Pipework
