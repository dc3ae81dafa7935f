import Pipework.Proofs.Registration.Numbering
import Pipework.Proofs.Registration.Reuse

/-!
# Registrations without rivals

Where nobody else writes, a registration that succeeds leaves the versions as they are if there is
one with its hash (`Registration.register_of_versionOf?`), and otherwise creates and reports exactly
one, under the next number (`Registration.register_of_unknown`).
-/

namespace Pipework

/-- Whether a world has one version more than an earlier one, which is reported, and no rivals. -/
structure World.AddsVersion (w : World) (record : Record PipelineVersion) (w' : World) : Prop where
  pipelines : w'.store.pipelines = w.store.pipelines ++ [record]
  announcements : w'.announcements = w.announcements ++ [Registration.event record]
  rivals : w'.rivals = []

theorem World.AddsVersion.trans_same {w w' w'' : World} {record : Record PipelineVersion}
    (h : w.AddsVersion record w') (h' : w'.SameVersions w'') : w.AddsVersion record w'' where
  pipelines := h'.pipelines.trans h.pipelines
  announcements := h'.announcements.trans h.announcements
  rivals := h'.rivals.trans h.rivals

namespace Registration

variable {r : Registration} {w w' : World} {draft : VersionDraft} {record : Record PipelineVersion}
  {count : Nat} {added : List (Record PipelineVersion)}

/-- How far a registration has come whose hash is new, among so many versions and without rivals,
with the versions that it has added. -/
inductive Alone (count : Nat) (r : Registration) : List (Record PipelineVersion) → Prop where
  | asking (stage : r.stage = .findHash ∨ r.stage = .findNumber) : Alone count r []
  | numbered (stage : r.stage = .create (numberAfter count)) : Alone count r []
  | failed (cause : StoreError) (stage : r.stage = .failed cause) : Alone count r []
  | created (record : Record PipelineVersion) (stage : r.stage = .created record)
      (body : record.body = r.draft.numbered (numberAfter count)) (room : count < Nat.pow 2 64) :
      Alone count r [record]

namespace Alone

theorem lost (r : Registration) : Alone count r.lost [] := by
  unfold Registration.lost
  split
  · exact .asking (.inl rfl)
  · exact .failed _ rfl

/-- Before it ends it has added nothing. -/
theorem eq_nil (h : Alone count r added) (hr : r.result? = none) : added = [] := by
  cases h with
  | created record stage => simp [result?, stage] at hr
  | asking | numbered | failed => rfl

/-- If it succeeds it has created the version that it answers with. -/
theorem eq_created (h : Alone count r added) (hr : r.result? = some (.ok record)) :
    r.stage = .created record ∧ added = [record] ∧ count < Nat.pow 2 64
      ∧ record.body = r.draft.numbered (numberAfter count) := by
  cases h with
  | created record' stage body room =>
    simp only [result?, stage, Option.some.injEq, Except.ok.injEq] at hr
    subst hr
    exact ⟨stage, rfl, room, body⟩
  | asking stage => rcases stage with stage | stage <;> simp [result?, stage] at hr
  | numbered stage | failed _ stage => simp [result?, stage] at hr

end Alone

/-- A step reports nothing. -/
theorem events_step (r : Registration) (w : World) : (r.step w).2.events = w.events := by
  have hcreate (v : PipelineVersion) : (w.createPipeline v).2.events = w.events := by
    refine World.createPipeline_induction (P := fun w' => w'.events = w.events)
      (fun _ _ h => h) (fun w' v h => ?_) v rfl
    obtain ⟨calls, ⟨cause, hadd⟩ | hadd⟩ := w'.addPipeline_eq v <;> rwa [hadd]
  cases hstage : r.stage with
  | findHash | findNumber =>
    simp only [step, hstage]
    split <;> rfl
  | create number =>
    have hevents := hcreate (r.draft.numbered number)
    simp only [step, hstage]
    split <;> simp_all
  | found | created | failed => simp only [step, hstage]

/-- What a registration meets whose hash is new, among so many versions and without rivals. -/
structure Undisturbed (draft : VersionDraft) (count : Nat) (w : World) : Prop where
  alone : w.rivals = []
  numbered : Numbered (w.store.versions draft.name)
  unknown : ∀ record ∈ w.store.versions draft.name, record.body.versionHash ≠ draft.versionHash
  count : (w.store.versions draft.name).length = count

theorem alone_step (h : Alone count r []) (hr : r.result? = none)
    (hw : Undisturbed r.draft count w) :
    ∃ added, Alone count (r.step w).1 added
      ∧ (r.step w).2.store.pipelines = w.store.pipelines ++ added ∧ (r.step w).2.rivals = [] := by
  obtain ⟨added, request, more, rivals⟩ := step_request r hw.alone
  refine ⟨added, ?_, more, rivals⟩
  rcases hstep : r.step w with ⟨r', w'⟩
  rw [hstep] at request
  cases request with
  | found record stage stored hash => exact absurd hash (hw.unknown record stored)
  | missing => exact .asking (.inr rfl)
  | numbered number stage next =>
    have hnext := hw.numbered.nextNumber_getLast? r.draft.name
    rw [hw.count, next] at hnext
    cases hnext
    exact .numbered rfl
  | unreadable cause => exact .failed cause rfl
  | created number stamp stage free =>
    cases h with
    | numbered expected =>
      cases stage.symm.trans expected
      rw [← hw.count] at free
      obtain ⟨-, room⟩ := hw.numbered.eq_length_of_free (Nat.le_refl _) free
      exact .created _ rfl rfl (hw.count ▸ room)
    | asking other => rcases other with other | other <;> cases stage.symm.trans other
    | failed _ other => cases stage.symm.trans other
  | taken => exact .lost r
  | ended stage => simp [hr] at stage

/-- Until it ends it comes no further than that. -/
theorem alone_steps (n : Nat) (h : Alone count r []) (hr : r.result? = none)
    (hw : Undisturbed r.draft count w) :
    ∃ added, Alone count (steps n r w).1 added ∧ (steps n r w).1.draft = r.draft
      ∧ (steps n r w).2.store.pipelines = w.store.pipelines ++ added
      ∧ (steps n r w).2.events = w.events ∧ (steps n r w).2.rivals = [] := by
  induction n generalizing r w with
  | zero => exact ⟨[], h, rfl, (List.append_nil _).symm, rfl, hw.alone⟩
  | succ n ih =>
    obtain ⟨hdraft, -⟩ := step_of_unended (w := w) hr
    obtain ⟨added, halone, hpipelines, hrivals⟩ := alone_step h hr hw
    rw [steps_succ n hr]
    cases hnext : (r.step w).1.result? with
    | some result =>
      rw [steps_of_ended n (by rw [hnext, Option.isSome_some])]
      exact ⟨added, halone, hdraft, hpipelines, r.events_step w, hrivals⟩
    | none =>
      obtain rfl := halone.eq_nil hnext
      rw [List.append_nil] at hpipelines
      have hversions : (r.step w).2.store.versions r.draft.name
          = w.store.versions r.draft.name := by
        rw [Store.versions, hpipelines, Store.versions]
      have hw' : Undisturbed (r.step w).1.draft count (r.step w).2 := by
        rw [hdraft]
        exact ⟨hrivals, hversions ▸ hw.numbered, hversions ▸ hw.unknown, hversions ▸ hw.count⟩
      obtain ⟨added, halone', hdraft', hpipelines', hevents', hrivals'⟩ := ih halone hnext hw'
      exact ⟨added, halone', hdraft'.trans hdraft, hpipelines ▸ hpipelines',
        hevents'.trans (r.events_step w), hrivals'⟩

/-- Without rivals a registration of a new hash that succeeds creates and reports the version under
the next number. -/
theorem register_of_unknown (hw : Undisturbed draft count w)
    (h : register draft w = (.ok record, w')) :
    record.body = draft.numbered (numberAfter count) ∧ count < Nat.pow 2 64
      ∧ w.AddsVersion record w' := by
  have hstart : Alone count { draft } [] := .asking (.inl rfl)
  obtain ⟨added, halone, hdraft, hpipelines, hevents, hrivals⟩ :=
    alone_steps requestBound hstart rfl hw
  rcases hsteps : steps requestBound { draft } w with ⟨r, w''⟩
  simp only [hsteps] at halone hdraft hpipelines hevents hrivals
  obtain ⟨hworld, hresult⟩ := register_of_steps hsteps
  simp only [h] at hworld hresult
  obtain ⟨hstage, rfl, room, body⟩ := halone.eq_created (hresult record rfl)
  have hreported : w' = w''.emit (event record) := by
    rw [hworld, reported, hstage]
  have hannounced : w'.announcements = w.announcements ++ [event record] := by
    rw [hreported]
    simp [World.announcements, World.emit, hevents, event]
  refine ⟨by rw [body, hdraft], room, ?_, hannounced, ?_⟩
  · rw [hreported]
    exact hpipelines
  · rw [hreported]
    exact hrivals

end Registration

end Pipework
