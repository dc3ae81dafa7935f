import Pipework.Dispatch.Coordinator
import Pipework.Proofs.Graph.Renaming

/-!
# Pipelines that differ in their passes

Deployments, specs, version hashes and cache keys say which invocation an artifact comes from, never
which pass. So pipelines whose graphs are the same up to a renaming of passes cannot be told apart
by any of them (`Pipeline.Renamed.interchangeable`).
-/

namespace Pipework

variable {π : Equiv.Perm Uuid}

namespace Invocation

variable (i : Invocation)

@[simp] theorem spec_rename : (i.rename π).spec = i.spec := by
  simp only [spec, rename, Dict.map_map]
  rfl

/-- Only the place of the invocation looks at its inputs. -/
theorem compile_rename (c : PipelineConfiguration) (override : Option StepLayer)
    (materializers : Materializers) (stackKeys : List String) :
    (i.rename π).compile c override materializers stackKeys
      = i.compile c override materializers stackKeys := by
  simp only [compile, spec_rename]
  rfl

end Invocation

namespace Pipeline

/-- Two prepared pipelines that are the same but for their options and the passes of their
invocations. -/
structure Renamed (π : Equiv.Perm Uuid) (p q : Pipeline) : Prop where
  definition : q.definition = p.definition
  configuration : q.configuration = p.configuration
  arguments : q.arguments = p.arguments
  graph : q.graph = p.graph.map (.rename π)

/-- Two pipelines with the same deployments and specs, version hashes and cache keys. -/
structure Interchangeable (p q : Pipeline) : Prop where
  compileWith : ∀ (materializers : Materializers) (stack : Stack) (run : RunConfiguration),
    q.compileWith materializers stack run = p.compileWith materializers stack run
  versionHash : ∀ spec : Spec, q.versionHash spec = p.versionHash spec
  cacheKeys : ∀ d : Deployment, Coordinator.cacheKeys q d = Coordinator.cacheKeys p d

namespace Renamed

variable {p q : Pipeline} (h : p.Renamed π q)
include h

theorem name_eq : q.name = p.name := congrArg (·.name) h.definition

theorem stepSource?_eq : q.stepSource? = p.stepSource? := by
  funext id
  rw [stepSource?, stepSource?, h.graph]
  cases p.graph with
  | none => rfl
  | some g =>
    simp only [Option.map_some, Option.bind_some, Graph.get?_rename, Option.map_map]
    rfl

theorem compileWith_eq (materializers : Materializers) (stack : Stack) (run : RunConfiguration) :
    q.compileWith materializers stack run = p.compileWith materializers stack run := by
  simp only [compileWith, h.name_eq, h.definition, h.configuration, h.arguments, h.graph]
  cases p.graph with
  | none => rfl
  | some g =>
    have hsteps (c : PipelineConfiguration) :
        (g.rename π).invocations.toList.mapM (fun i => i.compile c (run.steps.get? i.id)
          materializers stack.settingKeys.keys)
        = g.invocations.toList.mapM fun i => i.compile c (run.steps.get? i.id)
          materializers stack.settingKeys.keys := by
      simp only [Graph.rename, Array.toList_map, List.mapM_map, Invocation.compile_rename,
        Invocation.id_rename, Function.comp_def]
    simp only [Option.map_some, pure_bind, Graph.contains_rename, hsteps]

/-- Passes do not show in what a pipeline compiles to, nor in its hashes. -/
theorem interchangeable : p.Interchangeable q where
  compileWith := h.compileWith_eq
  versionHash spec := by
    rw [versionHash, versionHash, h.name_eq, h.definition, h.stepSource?_eq]
  cacheKeys d := by rw [Coordinator.cacheKeys, Coordinator.cacheKeys, h.stepSource?_eq]

end Renamed

end Pipeline

end Pipework
