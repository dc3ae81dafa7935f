import Pipework.Proofs.Document.Deployment
import Pipework.Proofs.Json.Injective

/-!
# What the text of a spec tells

For its version hash a spec is written with all sources as import paths. Nothing else is lost: two
specs come to the same text if and only if they have the same structure
(`Spec.identityText_eq_iff`). Objects are told by their members, and a member by what is read back
from it.
-/

namespace Pipework

open Document

/-- What is read back from two values that are written alike is the same. -/
theorem Document.ReadAs.inj {α : Type} [ToJson α] {read : Reader Json α} {x y : α}
    (hx : ReadAs read x x) (hy : ReadAs read y y) (h : toJson x = toJson y) : x = y := by
  have hread : read (toJson x) = some y := h ▸ hy.reads
  exact Option.some.inj (hx.reads.symm.trans hread)

namespace Json

variable {α : Type} [ToJson α]

@[simp] theorem get?_object_append (k : String) (a b : List (String × Json)) :
    (object (a ++ b)).get? k = ((object b).get? k).or ((object a).get? k) :=
  Dict.get?_ofList_append

@[simp] theorem get?_object_member (k name : String) (x : α) :
    (object (member name x)).get? k = if name = k then some (toJson x) else none :=
  Dict.get?_insert .empty name k (toJson x)

@[simp] theorem get?_object_member? (k name : String) (x : Option α) :
    (object (member? name x)).get? k = if name = k then x.map toJson else none := by
  cases x with
  | none =>
    rw [Option.map_none, ite_self]
    rfl
  | some x => exact get?_object_member k name x

end Json

/-- Two sources that are imported under the same path. -/
def Source.SamePath (a b : Source) : Prop := a.importPath = b.importPath

/-- Two steps that do the same in their pipelines. -/
structure StepSpec.SamePlace (a b : StepSpec) : Prop where
  source : a.source.SamePath b.source
  predecessors : a.predecessors = b.predecessors
  inputs : a.inputs = b.inputs
  id : a.id = b.id

theorem StepSpec.identity_eq_iff {a b : StepSpec} : a.identity = b.identity ↔ a.SamePlace b := by
  constructor
  · intro h
    have hsource : toJson a.source.importPath = toJson b.source.importPath := by
      simpa [identity] using congrArg (Json.get? "source") h
    have hpredecessors : toJson a.predecessors = toJson b.predecessors := by
      simpa [identity] using congrArg (Json.get? "upstream_steps") h
    have hinputs : toJson a.inputs = toJson b.inputs := by
      simpa [identity] using congrArg (Json.get? "inputs") h
    have hid : toJson a.id = toJson b.id := by
      simpa [identity] using congrArg (Json.get? "pipeline_parameter_name") h
    refine ⟨Json.str.inj hsource, ?_, ?_, Json.str.inj hid⟩
    · exact (ReadAs.list_self fun _ _ => .text _).inj (.list_self fun _ _ => .text _) hpredecessors
    · exact (ReadAs.dict_self fun _ _ => InputSpec.readAs _).inj
        (.dict_self fun _ _ => InputSpec.readAs _) hinputs
  · rintro ⟨hsource, hpredecessors, hinputs, hid⟩
    rw [identity, identity, hsource, hpredecessors, hinputs, hid]

namespace Spec

/-- Two specs that differ at most in how sources with the same import paths are represented. -/
structure SameStructure (s t : Spec) : Prop where
  version : s.version = t.version
  /-- Equal as values; `0.0` and `-0.0` are two values. -/
  parameters : s.parameters = t.parameters
  /-- Both pipelines have a source or neither does. -/
  source : Option.Rel Source.SamePath s.source t.source
  /-- The steps at the same positions, of which there are as many. -/
  steps : List.Forall₂ StepSpec.SamePlace s.steps t.steps

theorem rel_samePath_iff {a b : Option Source} :
    Option.Rel Source.SamePath a b ↔ a.map Source.importPath = b.map Source.importPath := by
  cases a <;> cases b <;> simp [Source.SamePath]

theorem forall₂_samePlace_iff {a b : List StepSpec} :
    List.Forall₂ StepSpec.SamePlace a b
      ↔ a.map StepSpec.identity = b.map StepSpec.identity := by
  rw [← forall₂_eq_iff]
  simp only [StepSpec.identity_eq_iff]

theorem identity_eq_iff {s t : Spec} : s.identity = t.identity ↔ s.SameStructure t := by
  constructor
  · intro h
    have hversion : toJson s.version = toJson t.version := by
      simpa [identity] using congrArg (Json.get? "version") h
    have hparameters : toJson s.parameters = toJson t.parameters := by
      simpa [identity] using congrArg (Json.get? "parameters") h
    have hsource : (s.source.map Source.importPath).map toJson
        = (t.source.map Source.importPath).map toJson := by
      simpa [identity] using congrArg (Json.get? "source") h
    have hsteps : toJson (s.steps.map StepSpec.identity)
        = toJson (t.steps.map StepSpec.identity) := by
      simpa [identity] using congrArg (Json.get? "steps") h
    have hitems : (s.steps.map StepSpec.identity).map id
        = (t.steps.map StepSpec.identity).map id := Json.arr.inj hsteps
    rw [List.map_id, List.map_id] at hitems
    refine ⟨Json.str.inj hversion, (ReadAs.values _).inj (.values _) hparameters, ?_,
      forall₂_samePlace_iff.2 hitems⟩
    exact rel_samePath_iff.2 (Option.map_injective (fun _ _ => Json.str.inj) hsource)
  · rintro ⟨hversion, hparameters, hsource, hsteps⟩
    rw [identity, identity, hversion, hparameters, rel_samePath_iff.1 hsource,
      forall₂_samePlace_iff.1 hsteps]

/-- Two specs come to the same text if and only if they have the same structure. -/
theorem identityText_eq_iff (s t : Spec) :
    s.identityText = t.identityText ↔ s.SameStructure t := by
  rw [← identity_eq_iff]
  exact ⟨Json.compact_inj, congrArg Json.compact⟩

end Spec

end Pipework
