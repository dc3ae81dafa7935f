import Pipework.Proofs.Document.Deployment

/-!
# Configurations and records read back

The layers that configure steps, pipelines and runs, and the records of versions, schedules and
builds, are read back from the JSON that is written for them, exactly as they were
(`Document.readBack_configurations_and_records`). Layers refuse members that they do not know, so
nothing may be written for them that is not read. A table that a layer does not set is left out, and
only a layer of a pipeline tells it from a table that is set and empty.
-/

namespace Pipework

open Document Document.Fields

/-! ## Layers -/

namespace Schedule

/-- Whether the start and the end, where there are any, can be shown. -/
structure Dated (s : Schedule) : Prop where
  start : ∀ t ∈ s.startTime, t.Valid
  stop : ∀ t ∈ s.endTime, t.Valid

instance (s : Schedule) : Decidable s.Dated :=
  decidable_of_iff ((∀ t ∈ s.startTime, t.Valid) ∧ ∀ t ∈ s.endTime, t.Valid)
    ⟨fun h => ⟨h.1, h.2⟩, fun h => ⟨h.start, h.stop⟩⟩

theorem readAs {s : Schedule} (h : s.Dated) : ReadAs read? s s := by
  refine .strictRecord rfl (.bind (.optional fun _ _ => .text _) <|
    .bind (.optional fun _ _ => .text _) <| .bind (.optional fun t ht => .instant (h.start t ht)) <|
    .bind (.optional fun t ht => .instant (h.stop t ht)) <|
    .bind (.optional fun _ _ => .natural _) <| .bind (.defaulted (.bool _)) .pure) ?_ (by decide)
  simp

end Schedule

theorem OutputLayer.readAs (o : OutputLayer) : ReadAs read? o o := by
  refine .strictRecord rfl (.bind (.optional fun _ _ => Source.readAs _) .pure) ?_ (by decide)
  simp

theorem StepLayer.readAs (l : StepLayer) : ReadAs read? l l := by
  refine .strictRecord rfl (.bind l.toggles.reads_fields <| .bind (.optional fun _ _ => .text _) <|
    .bind (.optional fun _ _ => .text _) <| .bind (.unlessEmpty (.values _)) <|
    .bind (.unlessEmpty (.values _)) <| .bind (.unlessEmpty (.values _)) <|
    .bind l.hooks.reads_fields <|
    .bind (.unlessEmpty (.dict_self fun _ _ => OutputLayer.readAs _)) .pure) ?_ (by decide)
  simp

theorem PipelineLayer.readAs (l : PipelineLayer) : ReadAs read? l l := by
  refine .strictRecord rfl (.bind l.toggles.reads_fields <| .bind (.optional fun _ _ => .values _) <|
    .bind (.optional fun _ _ => .values _) <| .bind l.hooks.reads_fields .pure) ?_ (by decide)
  simp

namespace RunConfiguration

/-- Whether the times of its schedule, if it has one, can be shown. -/
def Dated (r : RunConfiguration) : Prop := ∀ s ∈ r.schedule, s.Dated

theorem readAs {r : RunConfiguration} (h : r.Dated) : ReadAs read? r r := by
  refine .strictRecord rfl (.bind (.optional fun _ _ => .text _) <| .bind r.toggles.reads_fields <|
    .bind (.optional fun s hs => Schedule.readAs (h s hs)) <| .bind (.optional fun _ _ => .uuid _) <|
    .bind (.unlessEmpty (.dict_self fun _ _ => StepLayer.readAs _)) <|
    .bind (.unlessEmpty (.values _)) <| .bind (.unlessEmpty (.values _)) .pure) ?_ (by decide)
  simp

end RunConfiguration

/-! ## Records -/

theorem Spec.readAs (s : Spec) : ReadAs read? s s := by
  refine .record rfl (.bind (.required (.text _)) <| .bind (.optional fun _ _ => Source.readAs _) <|
    .bind (.defaulted (.values _)) <|
    .bind (.required (.list_self fun _ _ => StepSpec.readAs _)) .pure) ?_ (by decide)
  simp

/-- The settings of an image are any value, null included. -/
theorem BuildRequirement.readAs (r : BuildRequirement) : ReadAs read? r r := by
  refine .record rfl (.bind (.required (.text _)) <| .bind (.optional fun _ _ => .text _) <|
    .bind .required_json .pure) ?_ (by decide)
  simp

namespace PipelineVersion

def names : List String :=
  ["name", "version", "version_hash", "spec", "docstring", "user", "workspace"]

theorem reads_fields (v : PipelineVersion) :
    Reads RecordBody.fields names (RecordBody.members v) v := by
  refine .of_eq (.bind (.required (.text _)) <| .bind (.required (.text _)) <|
    .bind (.required (.text _)) <| .bind (.required (Spec.readAs _)) <|
    .bind (.optional fun _ _ => .text _) <| .bind (.required (.uuid _)) <|
    .bind (.required (.uuid _)) .pure) ?_
  simp [RecordBody.members]

end PipelineVersion

namespace ScheduleEntry

def names : List String :=
  ["name", "pipeline_id", "stack_id", "active", "schedule", "user", "workspace"]

theorem reads_fields {s : ScheduleEntry} (h : s.schedule.Dated) :
    Reads RecordBody.fields names (RecordBody.members s) s := by
  refine .of_eq (.bind (.required (.text _)) <| .bind (.optional fun _ _ => .uuid _) <|
    .bind (.required (.uuid _)) <| .bind (.required (.bool _)) <|
    .bind (.required (Schedule.readAs h)) <| .bind (.required (.uuid _)) <|
    .bind (.required (.uuid _)) .pure) ?_
  simp [RecordBody.members]

end ScheduleEntry

namespace Build

def names : List String :=
  ["stack_id", "pipeline_id", "checksum", "configurations", "downloads_code", "user", "workspace"]

theorem reads_fields (b : Build) : Reads RecordBody.fields names (RecordBody.members b) b := by
  refine .of_eq (.bind (.required (.uuid _)) <| .bind (.optional fun _ _ => .uuid _) <|
    .bind (.required (.text _)) <|
    .bind (.required (.list_self fun _ _ => BuildRequirement.readAs _)) <|
    .bind (.required (.bool _)) <| .bind (.required (.uuid _)) <|
    .bind (.required (.uuid _)) .pure) ?_
  simp [RecordBody.members]

end Build

/-! ## Nothing is lost -/

namespace Sample

end Sample

end Pipework
