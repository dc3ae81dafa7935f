import Pipework.Proofs.Dispatch.Requests

/-!
# Registering again

A registration answers with the newest version that has its hash, be it one that it has found or one
that it has created. So whoever registers the same spec again, with nobody else writing versions of
the pipeline, gets the same record: no version is asked for, and none is reported.
-/

namespace Pipework

namespace World

/-- The reports of new versions, the oldest first. -/
def announcements (w : World) : List Event := w.events.filter (·.type = Event.registered)

/-- Whether a world has the versions of an earlier one, without having asked for one or reported one
in between, and is to be written by the same rivals. -/
structure SameVersions (w w' : World) : Prop where
  pipelines : w'.store.pipelines = w.store.pipelines
  creations : w'.store.calls.createPipeline = w.store.calls.createPipeline
  announcements : w'.announcements = w.announcements
  rivals : w'.rivals = w.rivals

namespace SameVersions

variable {w w' w'' : World}

theorem refl (w : World) : w.SameVersions w := ⟨rfl, rfl, rfl, rfl⟩

theorem trans (h : w.SameVersions w') (h' : w'.SameVersions w'') : w.SameVersions w'' where
  pipelines := h'.pipelines.trans h.pipelines
  creations := h'.creations.trans h.creations
  announcements := h'.announcements.trans h.announcements
  rivals := h'.rivals.trans h.rivals

theorem versions_eq (h : w.SameVersions w') (name : String) :
    w'.store.versions name = w.store.versions name := by
  rw [Store.versions, h.pipelines, Store.versions]

end SameVersions

/-- Reports of something else do not matter. -/
theorem sameVersions_emit (w : World) {event : Event} (h : event.type ≠ Event.registered) :
    w.SameVersions (w.emit event) := by
  refine ⟨rfl, rfl, ?_, rfl⟩
  simp [announcements, emit, h]

end World

namespace Store

/-- The newest version of a pipeline with a hash. -/
def versionOf? (s : Store) (name hash : String) : Option (Record PipelineVersion) :=
  ((s.versions name).filter fun r => r.body.versionHash = hash).getLast?

variable {s t : Store} {name hash : String} {record : Record PipelineVersion}

theorem versionOf?_of_versions_eq (h : t.versions name = s.versions name) :
    t.versionOf? name hash = s.versionOf? name hash := by
  rw [versionOf?, h, versionOf?]

/-- The newest version of all is the newest one with its hash. -/
theorem versionOf?_of_append {earlier : List (Record PipelineVersion)}
    (h : s.pipelines = earlier ++ [record]) :
    s.versionOf? record.body.name record.body.versionHash = some record := by
  simp [versionOf?, versions, h]

end Store

namespace Registration

variable {r : Registration} {w w' : World} {draft : VersionDraft} {record : Record PipelineVersion}

/-- What a registration answers, if it does, is the newest version with its hash. -/
def Newest (r : Registration) (s : Store) : Prop :=
  ∀ record, r.result? = some (.ok record) →
    s.versionOf? r.draft.name r.draft.versionHash = some record

theorem newest_of_unended (h : r.result? = none) {s : Store} : r.Newest s := by
  intro record hrecord
  cases h.symm.trans hrecord

theorem newest_step (h : r.result? = none) : (r.step w).1.Newest (r.step w).2.store := by
  cases hstage : r.stage with
  | found | created | failed => simp [result?, hstage] at h
  | findHash =>
    simp only [step, hstage, World.listPipelines, Store.first?_listPipelines_hash]
    split
    · rename_i record hfound
      intro _ hrecord
      cases hrecord
      exact hfound
    · exact newest_of_unended rfl
  | findNumber =>
    simp only [step, hstage]
    split
    · exact newest_of_unended rfl
    · rintro _ ⟨⟩
  | create number =>
    simp only [step, hstage]
    rcases hcreate : w.createPipeline (r.draft.numbered number) with ⟨cause | record, w'⟩
    · cases cause with
      | conflict => exact fun _ hrecord => absurd hrecord result?_lost
      | _ => rintro _ ⟨⟩
    · obtain ⟨hbody, earlier, hnewest⟩ := World.append_of_createPipeline hcreate
      intro _ hrecord
      cases hrecord
      have hversion := Store.versionOf?_of_append hnewest
      rwa [hbody] at hversion

theorem newest_steps (n : Nat) (h : r.result? = none) :
    (steps n r w).1.Newest (steps n r w).2.store := by
  induction n generalizing r w with
  | zero => exact newest_of_unended h
  | succ n ih =>
    rw [steps_succ n h]
    cases hnext : (r.step w).1.result? with
    | some result =>
      rw [steps_of_ended n (by rw [hnext, Option.isSome_some])]
      exact newest_step h
    | none => exact ih hnext

/-- After a registration the newest version with its hash is the one that it has answered with,
whatever a rival has done. -/
theorem versionOf?_of_register (h : register draft w = (.ok record, w')) :
    w'.store.versionOf? draft.name draft.versionHash = some record := by
  have hnewest := newest_steps (r := { draft }) (w := w) requestBound rfl
  obtain ⟨hdraft, -⟩ := exists_requests_steps requestBound { draft } w rfl
  rcases hsteps : steps requestBound { draft } w with ⟨r, w''⟩
  rw [hsteps] at hnewest hdraft
  obtain ⟨hworld, hresult⟩ := register_of_steps hsteps
  rw [h] at hworld hresult
  obtain rfl : w' = r.reported w'' := hworld
  have hversion := hnewest record (hresult record rfl)
  rwa [hdraft, ← store_reported (r := r)] at hversion

/-- A registration finds the newest version with its hash, and neither adds nor reports one. -/
theorem register_of_versionOf?
    (h : w.store.versionOf? draft.name draft.versionHash = some record) :
    ∃ w', register draft w = (.ok record, w') ∧ w.SameVersions w' := by
  have hstep : step { draft } w = ({ draft, stage := .found record }, (w.listPipelines
      { name := draft.name, versionHash := draft.versionHash, size := some 1 }).2) := by
    have hfirst := w.store.first?_listPipelines_hash draft.name draft.versionHash
    rw [← Store.versionOf?, h] at hfirst
    simp only [step, World.listPipelines, hfirst]
  have hsteps : steps requestBound { draft } w = ({ draft, stage := .found record },
      (w.listPipelines
        { name := draft.name, versionHash := draft.versionHash, size := some 1 }).2) := by
    have hbound : requestBound = 8 + 1 := rfl
    rw [hbound, steps_succ 8 rfl, hstep, steps_of_ended 8 rfl]
  refine ⟨(w.listPipelines
    { name := draft.name, versionHash := draft.versionHash, size := some 1 }).2, ?_, rfl, rfl, rfl,
    rfl⟩
  simp only [register, hsteps]

end Registration

end Pipework
