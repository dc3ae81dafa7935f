import Pipework.Proofs.Document.Fields
import Pipework.Store.Record

/-!
# Records of deployments read back

All parts of a record of a deployment are read back as they were written, with one exception: an
external input with the value null is read back without a value. `Record.withoutNulls` is what
becomes of a record in this way.
-/

namespace Pipework

open Document Document.Fields

/-! ## Parts -/

theorem Source.readAs (s : Source) : ReadAs Source.read? s s :=
  .record rfl (.bind (.required (.text _)) <| .bind (.required (.text _)) <|
    .bind (.defaulted (.bool _)) .pure) rfl (by decide)

theorem InputSpec.readAs (i : InputSpec) : ReadAs InputSpec.read? i i :=
  .record rfl (.bind (.required (.text _)) <| .bind (.required (.text _)) .pure) rfl (by decide)

theorem StepSpec.readAs (s : StepSpec) : ReadAs StepSpec.read? s s :=
  .record rfl (.bind (.required (Source.readAs _)) <|
    .bind (.required (.list_self fun _ _ => .text _)) <|
    .bind (.required (.dict_self fun _ _ => InputSpec.readAs _)) <|
    .bind (.required (.text _)) .pure) rfl (by decide)

theorem OutputConfiguration.readAs (o : OutputConfiguration) :
    ReadAs OutputConfiguration.read? o o :=
  .record rfl (.bind (.required (.text _)) <| .bind (.required (Source.readAs _)) .pure) rfl
    (by decide)

theorem CodeReference.readAs (r : CodeReference) : ReadAs CodeReference.read? r r :=
  .record rfl (.bind (.required (.text _)) <| .bind (.required (.text _)) <|
    .bind (.required (.uuid _)) .pure) rfl (by decide)

namespace Toggles

def names : List String :=
  ["enable_cache", "enable_artifact_metadata", "enable_artifact_visualization"]

theorem reads_fields (t : Toggles) : Reads fields names t.membersIfSet t := by
  refine .of_eq (.bind (.optional fun _ _ => .bool _) <| .bind (.optional fun _ _ => .bool _) <|
    .bind (.optional fun _ _ => .bool _) .pure) ?_
  simp [membersIfSet]

theorem reads_nullableFields (t : Toggles) : Reads nullableFields names t.members t :=
  .bind (.nullable fun _ _ => .bool _) <| .bind (.nullable fun _ _ => .bool _) <|
    .bind (.nullable fun _ _ => .bool _) .pure

end Toggles

namespace HookSources

def names : List String := ["failure_hook_source", "success_hook_source"]

theorem reads_fields (h : HookSources) : Reads fields names h.membersIfSet h := by
  refine .of_eq (.bind (.optional fun _ _ => Source.readAs _) <|
    .bind (.optional fun _ _ => Source.readAs _) .pure) ?_
  simp [membersIfSet]

theorem reads_nullableFields (h : HookSources) : Reads nullableFields names h.members h :=
  .bind (.nullable fun _ _ => Source.readAs _) <| .bind (.nullable fun _ _ => Source.readAs _) .pure

end HookSources

theorem PipelineConfiguration.readAs (c : PipelineConfiguration) :
    ReadAs PipelineConfiguration.read? c c := by
  refine .record rfl (.bind (.required (.text _)) <| .bind c.toggles.reads_fields <|
    .bind (.defaulted (.values _)) <| .bind (.defaulted (.values _)) <|
    .bind c.hooks.reads_fields .pure) ?_ (by decide)
  simp

/-! ## Parts that may hold null -/

/-- An input whose value null has been lost. -/
def ExternalInput.withoutNull (e : ExternalInput) : ExternalInput :=
  { e with value := e.value.filter (!·.isNull) }

def StepConfiguration.withoutNulls (c : StepConfiguration) : StepConfiguration :=
  { c with externalInputs := c.externalInputs.map ExternalInput.withoutNull }

def DeploymentStep.withoutNulls (s : DeploymentStep) : DeploymentStep :=
  { s with config := s.config.withoutNulls }

def DeploymentEntry.withoutNulls (d : DeploymentEntry) : DeploymentEntry :=
  { d with steps := d.steps.map DeploymentStep.withoutNulls }

def Record.withoutNulls (r : Record DeploymentEntry) : Record DeploymentEntry :=
  { r with body := r.body.withoutNulls }

theorem ExternalInput.readAs (e : ExternalInput) :
    ReadAs ExternalInput.read? e e.withoutNull := by
  refine .record rfl (.bind (.optional fun _ _ => .uuid _) <| .bind .optional_json <|
    .bind (.required (.text _)) <| .bind (.optional fun _ _ => Source.readAs _) .pure) ?_
    (by decide)
  simp

theorem StepConfiguration.readAs (c : StepConfiguration) :
    ReadAs StepConfiguration.read? c c.withoutNulls :=
  .record rfl (.bind (.required (.text _)) <| .bind c.toggles.reads_nullableFields <|
    .bind (.nullable fun _ _ => .text _) <| .bind (.nullable fun _ _ => .text _) <|
    .bind (.required (.values _)) <| .bind (.required (.values _)) <|
    .bind (.required (.values _)) <| .bind c.hooks.reads_nullableFields <|
    .bind (.required (.dict_self fun _ _ => OutputConfiguration.readAs _)) <|
    .bind (.required (.dict fun _ _ => ExternalInput.readAs _)) .pure) rfl (by decide)

theorem DeploymentStep.readAs (s : DeploymentStep) :
    ReadAs DeploymentStep.read? s s.withoutNulls :=
  .record rfl (.bind (.required (StepSpec.readAs _)) <|
    .bind (.required (StepConfiguration.readAs _)) .pure) rfl (by decide)

/-! ## Records -/

/-- A record is read back with its stamp if its body is. -/
theorem Record.readAs {α : Type} [RecordBody α] {names : List String} {r : Record α} {body : α}
    (hcreated : r.stamp.created.Valid)
    (h : Reads RecordBody.fields names (RecordBody.members r.body) body)
    (hnames : ("id" :: "created" :: names).Nodup) : ReadAs Record.read? r { r with body } := by
  refine .namedRecord rfl (.bind (.required (.uuid _)) <| .bind (.required (.instant hcreated)) <|
    .bind h .pure) ?_ ?_
  · simp
  · simpa using hnames

namespace DeploymentEntry

def names : List String :=
  ["run_name_template", "pipeline_configuration", "steps", "stack_id", "pipeline_id", "build_id",
    "schedule_id", "code_reference", "step_cache_keys", "client_version", "user", "workspace"]

theorem reads_fields (d : DeploymentEntry) :
    Reads RecordBody.fields names (RecordBody.members d) d.withoutNulls := by
  refine .of_eq (.bind (.required (.text _)) <|
    .bind (.required (PipelineConfiguration.readAs _)) <|
    .bind (.required (.list fun _ _ => DeploymentStep.readAs _)) <| .bind (.required (.uuid _)) <|
    .bind (.optional fun _ _ => .uuid _) <| .bind (.optional fun _ _ => .uuid _) <|
    .bind (.optional fun _ _ => .uuid _) <| .bind (.optional fun _ _ => CodeReference.readAs _) <|
    .bind (.required (.dict_self fun _ _ => .text _)) <| .bind (.required (.text _)) <|
    .bind (.required (.uuid _)) <| .bind (.required (.uuid _)) .pure) ?_
  simp [RecordBody.members]

end DeploymentEntry

/-- The record of a deployment is read back, though without nulls. -/
theorem Record.read?_toJson {r : Record DeploymentEntry} (h : r.stamp.created.Valid) :
    Record.read? (toJson r) = some r.withoutNulls :=
  (readAs h r.body.reads_fields (by decide)).reads

/-! ## What is lost -/

theorem ExternalInput.withoutNull_eq_iff {e : ExternalInput} :
    e.withoutNull = e ↔ e.value ≠ some .null := by
  obtain ⟨id, value, contentHash, materializer⟩ := e
  rw [withoutNull, mk.injEq]
  rcases value with _ | _ | _ | _ | _ | _ | _ <;> simp [Json.isNull]

theorem DeploymentStep.withoutNulls_eq_iff {s : DeploymentStep} :
    s.withoutNulls = s ↔ ∀ e ∈ s.config.externalInputs.values, e.value ≠ some .null := by
  have hinputs : s.withoutNulls = s
      ↔ s.config.externalInputs.map ExternalInput.withoutNull = s.config.externalInputs := by
    constructor
    · exact fun h => congrArg (·.config.externalInputs) h
    · intro h
      rw [withoutNulls, StepConfiguration.withoutNulls, h]
  rw [hinputs, Dict.map_eq_self_iff]
  exact forall₂_congr fun e _ => ExternalInput.withoutNull_eq_iff

theorem Record.withoutNulls_eq_iff {r : Record DeploymentEntry} :
    r.withoutNulls = r ↔ ∀ s ∈ r.body.steps, s.withoutNulls = s := by
  have hsteps : r.withoutNulls = r
      ↔ r.body.steps.map DeploymentStep.withoutNulls = r.body.steps.map fun s => s := by
    rw [List.map_id']
    constructor
    · exact fun h => congrArg (·.body.steps) h
    · intro h
      rw [withoutNulls, DeploymentEntry.withoutNulls, h]
  rw [hsteps, List.map_inj_left]

end Pipework
