import Pipework.Proofs.Registration.Outcome
import Pipework.Proofs.Text.Number

/-!
# Numbers of versions under races

A registration that wants to create a version first asks for the newest one and adds one to its
number. By the time it creates, that number may be taken. `Race.gapless_run` says that the versions
are numbered from one on without gaps all the same, whatever the schedule: a stale number is taken,
so it is refused.
-/

namespace Pipework

namespace Registration

/-- The number of the version that comes after so many others. -/
def numberAfter (count : Nat) : Nat := (count + 1) % Nat.pow 2 64

theorem numberAfter_lt (count : Nat) : numberAfter count < Nat.pow 2 64 :=
  Nat.mod_lt _ (by decide)

theorem numberAfter_of_lt {count : Nat} (h : count + 1 < Nat.pow 2 64) :
    numberAfter count = count + 1 := Nat.mod_eq_of_lt h

theorem toString_ne_unversioned {n : Nat} (h : n < Nat.pow 2 64) :
    toString n ≠ PipelineVersion.unversioned := by
  intro hn
  have hread := Text.natural?_toString h
  have hword : Text.natural? (Nat.pow 2 64) PipelineVersion.unversioned = .error .invalidDigit := by
    decide
  rw [hn, hword] at hread
  cases hread

theorem nextNumber_of_version {name : String} {record : Record PipelineVersion} {n : Nat}
    (hn : n < Nat.pow 2 64) (h : record.body.version = toString n) :
    nextNumber name (some record) = .ok (numberAfter n) := by
  simp only [nextNumber, h]
  rw [if_neg (toString_ne_unversioned hn), Text.natural?_toString hn]
  rfl

theorem numberAfter_numberAfter (count : Nat) :
    numberAfter (numberAfter count) = numberAfter (count + 1) := Nat.mod_add_mod _ _ _

end Registration

open Registration

/-- The versions bear the numbers from one on in the order of their creation. Numbers have 64 bits,
so there are no more than `2^64` of them, the last being zero. -/
structure Numbered (l : List (Record PipelineVersion)) : Prop where
  numbers : l.map (·.body.version) = (List.range l.length).map fun i => toString (numberAfter i)
  bounded : l.length ≤ Nat.pow 2 64

namespace Numbered

variable {l : List (Record PipelineVersion)}

theorem nil : Numbered [] := ⟨rfl, by simp⟩

theorem version_getElem (h : Numbered l) {i : Nat} (hi : i < l.length) :
    l[i].body.version = toString (numberAfter i) := by
  have := congrArg (·[i]?) h.numbers
  simpa [hi] using this

/-- The number after the newest version is the next one. -/
theorem nextNumber_getLast? (h : Numbered l) (name : String) :
    nextNumber name l.getLast? = .ok (numberAfter l.length) := by
  cases hl : l.getLast? with
  | none =>
    rw [List.getLast?_eq_none_iff.1 hl]
    rfl
  | some record =>
    have hpos : 0 < l.length := List.length_pos_of_mem (List.mem_of_getLast? hl)
    have hlast : l[l.length - 1] = record := by
      rw [List.getLast?_eq_getElem?, List.getElem?_eq_getElem (by omega)] at hl
      exact Option.some.inj hl
    have hv := h.version_getElem (by omega : l.length - 1 < l.length)
    rw [hlast] at hv
    rw [nextNumber_of_version (numberAfter_lt _) hv, numberAfter_numberAfter,
      Nat.sub_add_cancel hpos]

theorem mem_of_lt (h : Numbered l) {i : Nat} (hi : i < l.length) :
    ∃ record ∈ l, record.body.version = toString (numberAfter i) :=
  ⟨l[i], List.getElem_mem hi, h.version_getElem hi⟩

/-- A number that was the next one when it was looked up, and is free, is the next one still. -/
theorem eq_length_of_free (h : Numbered l) {i : Nat} (hi : i ≤ l.length)
    (free : ∀ record ∈ l, record.body.version ≠ toString (numberAfter i)) :
    i = l.length ∧ l.length < Nat.pow 2 64 := by
  have hlen : i = l.length := by
    by_contra hne
    obtain ⟨record, hr, hv⟩ := h.mem_of_lt (by omega : i < l.length)
    exact free record hr hv
  refine ⟨hlen, Nat.lt_of_le_of_ne h.bounded fun full => ?_⟩
  -- The number after `2^64` versions is one again.
  have hpos : 0 < l.length := full ▸ (by decide : 0 < Nat.pow 2 64)
  obtain ⟨record, hr, hv⟩ := h.mem_of_lt hpos
  refine free record hr ?_
  rw [hv, hlen, full]
  rfl

theorem snoc (h : Numbered l) (hl : l.length < Nat.pow 2 64) {record : Record PipelineVersion}
    (hv : record.body.version = toString (numberAfter l.length)) : Numbered (l ++ [record]) where
  numbers := by
    rw [List.map_append, h.numbers, List.length_append, List.length_singleton, List.range_succ,
      List.map_append, List.map_singleton, List.map_singleton, hv]
  bounded := by
    rw [List.length_append, List.length_singleton]
    exact hl

/-- Below `2^64` versions the numbers are the decimals from one on. -/
theorem versions_eq (h : Numbered l) (hl : l.length < Nat.pow 2 64) :
    l.map (·.body.version) = (List.range' 1 l.length).map toString := by
  rw [h.numbers, List.range'_eq_map_range, List.map_map]
  refine List.map_congr_left fun i hi => ?_
  rw [List.mem_range] at hi
  rw [numberAfter_of_lt (by omega), Function.comp_apply, Nat.add_comm]

end Numbered

namespace Race

/-- The invariant of a race for one name. Whatever number a call is about to ask for was the next
one at some time, so it is now the next one or taken. -/
structure Numbering (name : String) (race : Race) : Prop where
  numbered : Numbered (race.versions name)
  guessed : ∀ r ∈ race.calls, r.draft.name = name → ∀ number, r.stage = .create number →
    ∃ count ≤ (race.versions name).length, number = numberAfter count

variable {name : String} {race : Race} {i : Nat} {r r' : Registration}
  {added : List (Record PipelineVersion)}

/-- A number that is asked for after a move was asked for before, or has just been looked up. -/
theorem Numbering.guessed_of_request (h : race.Numbering name) (move : race.Move i r r' added)
    (hname : r'.draft.name = name) {number : Nat} (hstage : r'.stage = .create number) :
    ∃ count ≤ (race.versions name).length, number = numberAfter count := by
  have hdraft := move.request.draft_eq
  have hmem : r ∈ race.calls := List.mem_of_getElem? move.call
  cases move.request with
  | numbered found stage next =>
    have hn : r.draft.name = name := hname
    rw [hn] at next
    have := (h.numbered.nextNumber_getLast? name).symm.trans next
    exact ⟨_, Nat.le_refl _, (Stage.create.inj hstage).symm.trans (Except.ok.inj this).symm⟩
  | ended stage => exact h.guessed r hmem hname number hstage
  | taken => unfold lost at hstage; split at hstage <;> cases hstage
  | found | missing | unreadable | created => cases hstage

theorem Numbering.step (move : race.Move i r r' added) (h : race.Numbering name) :
    (race.step i).Numbering name := by
  have hversions := move.versions_eq name
  have hgrow : (race.versions name).length ≤ ((race.step i).versions name).length := by
    rw [hversions, List.length_append]
    omega
  refine ⟨?_, fun c hc hname number hstage => ?_⟩
  · rw [hversions]
    have hmem : r ∈ race.calls := List.mem_of_getElem? move.call
    cases move.request with
    | created number stamp stage free =>
      by_cases hname : r.draft.name = name
      · obtain ⟨count, hcount, rfl⟩ := h.guessed r hmem hname number stage
        have free : ∀ record ∈ race.versions name, record.body.version ≠ _ := hname ▸ free
        obtain ⟨rfl, hroom⟩ := h.numbered.eq_length_of_free hcount free
        rw [List.filter_cons_of_pos (by simp [hname])]
        exact h.numbered.snoc hroom rfl
      · rw [List.filter_cons_of_neg (by simp [hname])]
        simpa using h.numbered
    | found | missing | numbered | unreadable | taken | ended => simpa using h.numbered
  · rcases move.mem_calls hc with hc | rfl
    · obtain ⟨count, hcount, hn⟩ := h.guessed c hc hname number hstage
      exact ⟨count, Nat.le_trans hcount hgrow, hn⟩
    · obtain ⟨count, hcount, hn⟩ := h.guessed_of_request move hname hstage
      exact ⟨count, Nat.le_trans hcount hgrow, hn⟩

theorem numbering_start {w : World} {name : String} (calls : List Registrant)
    (fresh : w.store.versions name = []) : (start w calls).Numbering name where
  numbered := by
    rw [versions, start, fresh]
    exact .nil
  guessed := by
    intro r hr _ number hstage
    obtain ⟨c, _, rfl⟩ := List.mem_map.1 hr
    cases hstage

theorem numbering_run {w : World} {name : String} (calls : List Registrant)
    (alone : w.rivals = []) (fresh : w.store.versions name = []) (schedule : List Nat) :
    ((start w calls).run schedule).Numbering name :=
  (run_induction (numbering_start calls fresh) alone
    (fun _ _ _ _ _ move h => h.step move) schedule).1

/-- The versions of a pipeline are numbered without gaps in every state of every race, and a call
that has returned a record has returned a stored version with the hash of its spec. -/
theorem gapless_run {w : World} {name : String} (calls : List Registrant) (alone : w.rivals = [])
    (fresh : w.store.versions name = []) (schedule : List Nat) :
    let race := (start w calls).run schedule
    Numbered (race.versions name)
    ∧ ((race.versions name).length < Nat.pow 2 64 →
      (race.versions name).map (·.body.version)
        = (List.range' 1 (race.versions name).length).map toString)
    ∧ ∀ (i : Nat) (c : Registrant) (r : Registration) (record : Record PipelineVersion),
      calls[i]? = some c → race.calls[i]? = some r → r.result? = some (.ok record) →
      record ∈ race.world.store.pipelines ∧ record.body.name = c.pipeline.name
      ∧ c.pipeline.versionHash c.spec = .ok record.body.versionHash := by
  intro race
  have hnumbered := (numbering_run calls alone fresh schedule).numbered
  refine ⟨hnumbered, hnumbered.versions_eq, fun i c r record hc hr hrecord => ?_⟩
  have hdraft : r.draft = c.draft w.store := draft_of_registrant alone hr hc
  have hanswered := (fresh_start w calls).answered_run alone schedule
  obtain ⟨stored, hash⟩ := hanswered r (List.mem_of_getElem? hr) record hrecord
  rw [hdraft] at stored hash
  obtain ⟨hmem, hname⟩ := Store.mem_versions.1 stored
  exact ⟨hmem, hname, by rw [hash]; exact c.hashed⟩

/-- One call waits with its empty listing while the other registers. It gets the next number. -/
theorem gapless_run_stale_listing :
    World.initial.rivals = [] ∧ World.initial.store.versions "training" = []
    ∧ (((start .initial [.ofName "training", .ofName "training"]).run [0, 1, 1, 1, 0, 0]).versions
      "training").map (·.body.version) = ["1", "2"] := by
  refine ⟨rfl, rfl, ?_⟩
  have hgapless := gapless_run (w := .initial) [.ofName "training", .ofName "training"]
    rfl (rfl : World.initial.store.versions "training" = []) [0, 1, 1, 1, 0, 0]
  exact hgapless.2.1 (by decide)

end Race

end Pipework
