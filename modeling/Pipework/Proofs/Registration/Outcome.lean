import Pipework.Proofs.Registration.Race

/-!
# Outcomes of registrations

A call keeps its draft, and the record it returns is a stored version with the hash of the draft. No
call takes more than `Registration.requestBound` requests, whatever the others do meanwhile.
-/

namespace Pipework

namespace Registration

/-- How many requests a registration can make at most from here on. -/
def remaining (r : Registration) : Nat :=
  match r.stage with
  | .findHash => 3 * (attempts - r.losses)
  | .findNumber => 3 * (attempts - r.losses) - 1
  | .create _ => 3 * (attempts - r.losses) - 2
  | .found _ | .created _ | .failed _ => 0

/-- A registration that is still under way has an attempt left. -/
def Underway (r : Registration) : Prop := r.result? = none → r.losses < attempts

variable {s : Store} {r r' : Registration} {added : List (Record PipelineVersion)}

theorem result?_of_remaining (live : r.Underway) (h : r.remaining = 0) : r.result?.isSome := by
  unfold Underway at live
  cases hstage : r.stage with
  | found | created | failed => simp [result?, hstage]
  | findHash | findNumber | create =>
    have := live (by simp [result?, hstage])
    simp only [remaining, hstage] at h
    omega

theorem Request.underway (request : Request s r r' added) (live : r.Underway) : r'.Underway := by
  cases request with
  | ended => exact live
  | found | unreadable | created => intro h; cases h
  | missing stage | numbered _ stage =>
    intro _
    exact live (by simp [result?, stage])
  | taken =>
    unfold lost
    split
    · intro _; assumption
    · intro h; cases h

/-- Every request of a registration uses up one of those that remain. -/
theorem Request.remaining_le (request : Request s r r' added) (live : r.Underway) :
    r'.remaining ≤ r.remaining - 1 := by
  cases request with
  | ended stage =>
    obtain ⟨result, h⟩ := Option.isSome_iff_exists.1 stage
    cases hstage : r.stage <;> simp_all [result?, remaining]
  | found | unreadable | created => exact Nat.zero_le _
  | missing stage | numbered _ stage =>
    simp only [remaining, stage]
    omega
  | taken number stage =>
    have hlive := live (by simp [result?, stage])
    unfold lost
    split
    · simp only [remaining, stage]
      omega
    · exact Nat.zero_le _

end Registration

namespace Race

variable {race : Race} {i : Nat} {r r' : Registration} {added : List (Record PipelineVersion)}

theorem Move.draft_eq (move : race.Move i r r' added) (j : Nat) :
    (race.step i).calls[j]?.map (·.draft) = race.calls[j]?.map (·.draft) := by
  rw [move.getElem?_calls]
  split
  · rename_i h
    rw [← h, move.call]
    exact congrArg some move.request.draft_eq
  · rfl

theorem draft_run (race : Race) (alone : race.world.rivals = []) (schedule : List Nat) (j : Nat) :
    (race.run schedule).calls[j]?.map (·.draft) = race.calls[j]?.map (·.draft) :=
  (run_induction (P := fun later => later.calls[j]?.map (·.draft) = race.calls[j]?.map (·.draft))
    rfl alone (fun _ _ _ _ _ move h => (move.draft_eq j).trans h) schedule).1

/-- The draft of a call is that of the registrant in its place. -/
theorem draft_of_registrant {w : World} {calls : List Registrant} (alone : w.rivals = [])
    {schedule : List Nat} (h : ((start w calls).run schedule).calls[i]? = some r) {c : Registrant}
    (hc : calls[i]? = some c) : r.draft = c.draft w.store := by
  have hdraft := draft_run (start w calls) alone schedule i
  rw [h, start, List.getElem?_map, hc] at hdraft
  exact Option.some.inj hdraft

/-- No call has made a request yet. -/
def Fresh (race : Race) : Prop := ∀ r ∈ race.calls, r = { draft := r.draft }

theorem fresh_start (w : World) (calls : List Registrant) : (start w calls).Fresh := by
  intro r hr
  obtain ⟨c, _, rfl⟩ := List.mem_map.1 hr
  rfl

/-- The records that calls have returned are stored. -/
def Answered (race : Race) : Prop :=
  ∀ r ∈ race.calls, ∀ record, r.result? = some (.ok record) →
    record ∈ race.versions r.draft.name ∧ record.body.versionHash = r.draft.versionHash

theorem Answered.step (h : race.Answered) (move : race.Move i r r' added) :
    (race.step i).Answered := by
  intro c hc record hrecord
  have hgrow : ∀ name, race.versions name ⊆ (race.step i).versions name := by
    intro name
    rw [move.versions_eq]
    exact List.subset_append_left _ _
  rcases move.mem_calls hc with hc | rfl
  · obtain ⟨stored, hash⟩ := h c hc record hrecord
    exact ⟨hgrow _ stored, hash⟩
  · rw [move.request.draft_eq]
    cases move.request with
    | found record' stage stored hash =>
      cases hrecord
      exact ⟨hgrow _ stored, hash⟩
    | created number stamp stage free =>
      cases hrecord
      refine ⟨?_, rfl⟩
      rw [move.versions_eq]
      simp
    | ended =>
      obtain ⟨stored, hash⟩ := h _ (List.mem_of_getElem? move.call) record hrecord
      exact ⟨hgrow _ stored, hash⟩
    | taken => unfold Registration.lost at hrecord; split at hrecord <;> cases hrecord
    | missing | numbered | unreadable => cases hrecord

theorem Fresh.answered_run (fresh : race.Fresh) (alone : race.world.rivals = [])
    (schedule : List Nat) : (race.run schedule).Answered := by
  refine (run_induction ?_ alone (fun _ _ _ _ _ move h => Answered.step h move) schedule).1
  intro r hr record hrecord
  rw [fresh r hr] at hrecord
  cases hrecord

/-- What a call can still do, given how often it has been scheduled. -/
theorem Fresh.remaining_run (fresh : race.Fresh) (alone : race.world.rivals = [])
    (schedule : List Nat) (h : (race.run schedule).calls[i]? = some r) :
    r.Underway ∧ r.remaining ≤ Registration.requestBound - schedule.count i := by
  revert h
  refine call_induction (P := fun s r => r.Underway
    ∧ r.remaining ≤ Registration.requestBound - s.count i) alone (fun r hr => ?_)
    (fun s r r' added move ⟨live, hle⟩ => ⟨move.request.underway live, ?_⟩)
    (fun s j r hne ⟨live, hle⟩ => ⟨live, ?_⟩)
  · rw [fresh r (List.mem_of_getElem? hr)]
    exact ⟨fun _ => Nat.zero_lt_succ _, Nat.le_refl _⟩
  · have := move.request.remaining_le live
    rw [List.count_append, List.count_singleton_self]
    omega
  · simpa [List.count_singleton, hne] using hle

/-- A call has ended after `requestBound` requests, whatever the others did in between. -/
theorem Fresh.ended_of_count (fresh : race.Fresh) (alone : race.world.rivals = [])
    {schedule : List Nat} (h : (race.run schedule).calls[i]? = some r)
    (hcount : Registration.requestBound ≤ schedule.count i) : r.result?.isSome := by
  obtain ⟨live, hle⟩ := fresh.remaining_run alone schedule h
  exact Registration.result?_of_remaining live (by omega)

/-- A registration on its own is a race of one call. -/
theorem run_replicate (n : Nat) (r : Registration) (w : World) :
    (Race.mk [r] w).run (List.replicate n 0)
      = ⟨[(Registration.steps n r w).1], (Registration.steps n r w).2⟩ := by
  have hstep : ∀ r w, (Race.mk [r] w).step 0 = ⟨[(r.step w).1], (r.step w).2⟩ := fun _ _ => rfl
  induction n generalizing r w with
  | zero => rfl
  | succ n ih =>
    have hrun : (Race.mk [r] w).run (List.replicate (n + 1) 0)
        = ((Race.mk [r] w).step 0).run (List.replicate n 0) := rfl
    rw [hrun, hstep, ih]
    cases hstage : r.stage with
    | findHash | findNumber | create => simp only [Registration.steps, hstage]
    | found | created | failed =>
      have hself : r.step w = (r, w) := by simp only [Registration.step, hstage]
      have hended : ∀ n, Registration.steps n r w = (r, w) := by
        rintro (_ | n)
        · rfl
        · simp only [Registration.steps, hstage]
      rw [hself, hended, hended]

/-- `Registration.register` makes requests until the registration ends, and answers as it ended. -/
theorem register_eq (draft : VersionDraft) {w : World} (alone : w.rivals = []) :
    ∃ r w' result, (Race.mk [{ draft }] w).run (List.replicate Registration.requestBound 0)
        = ⟨[r], w'⟩ ∧ r.result? = some result
      ∧ (Registration.register draft w).1 = result.mapError Error.store
      ∧ (Registration.register draft w).2.store = w'.store := by
  have fresh : (Race.mk [{ draft }] w).Fresh := by simp [Fresh]
  have hrun := run_replicate Registration.requestBound { draft } w
  generalize hsteps : Registration.steps Registration.requestBound { draft } w = last at hrun
  obtain ⟨r, w'⟩ := last
  have hended : r.result?.isSome :=
    fresh.ended_of_count (i := 0) alone (by rw [hrun]; rfl) (by decide)
  obtain ⟨result, hresult⟩ := Option.isSome_iff_exists.1 hended
  refine ⟨r, w', result, hrun, hresult, ?_⟩
  unfold Registration.result? at hresult
  unfold Registration.register
  rw [hsteps]
  cases hstage : r.stage with
  | found | failed =>
    rw [hstage] at hresult
    cases hresult
    simp only [hstage]
    exact ⟨rfl, trivial⟩
  | created =>
    rw [hstage] at hresult
    cases hresult
    simp only [hstage]
    exact ⟨rfl, rfl⟩
  | findHash | findNumber | create =>
    rw [hstage] at hresult
    cases hresult

end Race

end Pipework
