import Pipework.Proofs.Registration.Numbering

/-!
# Versions with the same hash

The store keeps numbers apart, not hashes. A call asks for its hash first and for the newest version
later, so a version with its hash may come into the store between these two requests. The call then
gets a number that is free and creates a second version with the same hash. `Race.distinct_run_iff`
says that this is the only way in which two versions with one hash come about.
-/

namespace Pipework

namespace Registration.Request

variable {s : Store} {r r' : Registration} {added : List (Record PipelineVersion)}

theorem stage_of_findNumber (request : Request s r r' added) (h : r.stage = .findNumber) :
    (∃ number, r'.stage = .create number) ∨ ∃ cause, r'.stage = .failed cause := by
  cases request with
  | numbered number => exact .inl ⟨number, rfl⟩
  | unreadable cause => exact .inr ⟨cause, rfl⟩
  | ended stage => simp [result?, h] at stage
  | found _ stage | missing stage | created _ _ stage | taken _ stage => simp [h] at stage

theorem added_of_create (request : Request s r r' added) {number : Nat}
    (h : r.stage = .create number) {record : Record PipelineVersion}
    (hr : r'.result? = some (.ok record)) :
    added = [record] ∧ record.body = r.draft.numbered number := by
  cases request with
  | created number' stamp stage =>
    cases h.symm.trans stage
    cases hr
    exact ⟨rfl, rfl⟩
  | taken => unfold lost at hr; split at hr <;> cases hr
  | ended stage => simp [result?, h] at stage
  | found _ stage | missing stage | numbered _ stage | unreadable _ stage => simp [h] at stage

end Registration.Request

namespace Race

/-- No two versions of the pipeline have the same hash. -/
def Distinct (name : String) (race : Race) : Prop :=
  (race.versions name).Pairwise fun a b => a.body.versionHash ≠ b.body.versionHash

/-- The `i`-th call looks up its number when a version with its hash is stored already, and creates
a version in its next request. -/
structure Overlooks (race : Race) (name : String) (before between : List Nat) (i : Nat) :
    Prop where
  waits : i ∉ between
  late : ∃ r, (race.run before).calls[i]? = some r ∧ r.draft.name = name ∧ r.stage = .findNumber
    ∧ ∃ record ∈ (race.run before).versions name, record.body.versionHash = r.draft.versionHash
  granted : ∃ r record, (race.run (before ++ [i] ++ between ++ [i])).calls[i]? = some r
    ∧ r.result? = some (.ok record)

variable {race : Race} {i : Nat} {r : Registration} {name : String}

/-- The versions at one time come first among those at a later time. -/
theorem versions_extend (race : Race) (alone : race.world.rivals = []) (s t : List Nat)
    (name : String) :
    (race.run s).versions name <+: (race.run (s ++ t)).versions name := by
  rw [run_append]
  refine (run_induction (P := fun later => (race.run s).versions name <+: later.versions name)
    (List.prefix_refl _) (rivals_run alone s) (fun later i r r' added move h => ?_) t).1
  rw [move.versions_eq]
  exact h.trans (List.prefix_append _ _)

/-- A call stays where it is until it is scheduled again. -/
theorem getElem?_run_of_notMem (alone : race.world.rivals = []) (s : List Nat) {t : List Nat}
    (hi : i ∉ t) : (race.run (s ++ t)).calls[i]? = (race.run s).calls[i]? := by
  induction t using List.reverseRecOn with
  | nil => rw [List.append_nil]
  | append_singleton t j ih =>
    rw [List.mem_append, List.mem_singleton, not_or] at hi
    rw [← List.append_assoc, run_snoc, ← ih hi.1]
    cases hj : (race.run (s ++ t)).calls[j]? with
    | none => rw [step_of_none hj]
    | some c =>
      obtain ⟨c', added, move⟩ := exists_move hj (rivals_run alone _)
      rw [move.getElem?_calls, if_neg (Ne.symm hi.2)]

/-- A call that is about to create a version has got the number in its last request. -/
theorem exists_lookUp (fresh : race.Fresh) (alone : race.world.rivals = []) {schedule : List Nat}
    {number : Nat} (h : (race.run schedule).calls[i]? = some r) (hr : r.stage = .create number) :
    ∃ before between r₀, schedule = before ++ [i] ++ between ∧ i ∉ between
      ∧ (race.run before).calls[i]? = some r₀ ∧ r₀.stage = .findNumber ∧ r₀.draft = r.draft
      ∧ Registration.nextNumber r.draft.name
          ((race.run before).versions r.draft.name).getLast? = .ok number := by
  revert h hr
  refine call_induction (P := fun s r => r.stage = .create number →
    ∃ before between r₀, s = before ++ [i] ++ between ∧ i ∉ between
      ∧ (race.run before).calls[i]? = some r₀ ∧ r₀.stage = .findNumber ∧ r₀.draft = r.draft
      ∧ Registration.nextNumber r.draft.name
          ((race.run before).versions r.draft.name).getLast? = .ok number) alone
    (fun r h hr => ?_) (fun s c r added move ih hr => ?_) (fun s j r hne ih hr => ?_)
  · rw [fresh r (List.mem_of_getElem? h)] at hr
    cases hr
  · refine ⟨s, [], c, by simp, by simp, move.call, ?_⟩
    cases move.request with
    | numbered number' stage next =>
      cases hr
      exact ⟨stage, rfl, next⟩
    | ended stage => simp [Registration.result?, hr] at stage
    | taken => unfold Registration.lost at hr; split at hr <;> cases hr
    | found | missing | unreadable | created => cases hr
  · obtain ⟨before, between, r₀, rfl, hi, hlate⟩ := ih hr
    exact ⟨before, between ++ [j], r₀, by simp, by simp [hi, Ne.symm hne], hlate⟩

/-- A call that creates a second version with its hash has overlooked the first. -/
theorem overlooks_of_create {w : World} (calls : List Registrant) (alone : w.rivals = [])
    (empty : w.store.versions name = []) {schedule : List Nat} {number : Nat} {stamp : Stamp}
    (h : ((start w calls).run schedule).calls[i]? = some r) (hname : r.draft.name = name)
    (hr : r.stage = .create number)
    (free : ∀ record ∈ ((start w calls).run schedule).versions name,
      record.body.version ≠ toString number)
    (created : (((start w calls).run (schedule ++ [i])).calls[i]?) =
      some { r with stage := .created ⟨stamp, r.draft.numbered number⟩ })
    (stored : ∃ record ∈ ((start w calls).run schedule).versions name,
      record.body.versionHash = r.draft.versionHash) :
    ∃ before between, schedule = before ++ [i] ++ between
      ∧ (start w calls).Overlooks name before between i := by
  obtain ⟨before, between, r₀, rfl, hi, hlate, hstage, hdraft, next⟩ :=
    exists_lookUp (fresh_start w calls) alone h hr
  rw [hname] at next
  -- The number was the next one at the look-up and is free, so no version has come in between.
  have hbefore := (numbering_run calls alone empty before).numbered
  have hnow := (numbering_run calls alone empty (before ++ [i] ++ between)).numbered
  have hearlier : ((start w calls).run before).versions name
      <+: ((start w calls).run (before ++ [i] ++ between)).versions name := by
    rw [List.append_assoc]
    exact versions_extend _ alone before _ _
  cases (hbefore.nextNumber_getLast? name).symm.trans next
  have hlength := (hnow.eq_length_of_free hearlier.length_le free).1
  rw [← hearlier.eq_of_length hlength, ← hdraft] at stored
  exact ⟨before, between, rfl, hi, ⟨r₀, hlate, hdraft ▸ hname, hstage, stored⟩,
    _, _, created, rfl⟩

/-- A call that overlooks a version creates a second one with the same hash. -/
theorem Overlooks.exists_same_hash {before between : List Nat} (alone : race.world.rivals = [])
    (h : race.Overlooks name before between i) :
    ∃ l a b, (race.run (before ++ [i] ++ between ++ [i])).versions name = l ++ [b] ∧ a ∈ l
      ∧ a.body.versionHash = b.body.versionHash := by
  obtain ⟨hi, ⟨r, hr, hname, hstage, a, ha, hash⟩, last, record, hlast, hresult⟩ := h
  obtain ⟨r₁, added₁, move₁⟩ := exists_move hr (rivals_run alone before)
  have hr₁ : (race.run (before ++ [i] ++ between)).calls[i]? = some r₁ := by
    rw [getElem?_run_of_notMem alone _ hi, run_snoc, move₁.getElem?_calls, if_pos rfl]
  obtain ⟨r₂, added₂, move₂⟩ := exists_move hr₁ (rivals_run alone _)
  rw [run_snoc, move₂.getElem?_calls, if_pos rfl] at hlast
  cases hlast
  have hdraft := move₁.request.draft_eq
  obtain ⟨number, hnumber⟩ : ∃ number, r₁.stage = .create number := by
    refine (move₁.request.stage_of_findNumber hstage).resolve_right ?_
    rintro ⟨cause, hfailed⟩
    have hended : r₁.result? = some (.error cause) := by simp [Registration.result?, hfailed]
    rw [(move₂.request.eq_of_result? hended).1, hended] at hresult
    cases hresult
  obtain ⟨rfl, hbody⟩ := move₂.request.added_of_create hnumber hresult
  have ha' : a ∈ (race.run (before ++ [i] ++ between)).versions name := by
    rw [List.append_assoc]
    exact (versions_extend _ alone before _ _).subset ha
  refine ⟨_, a, record, ?_, ha', ?_⟩
  · rw [run_snoc, move₂.versions_eq, List.filter_cons_of_pos (by simp [hbody, hdraft, hname])]
    rfl
  · rw [hash, hbody, VersionDraft.numbered_versionHash, hdraft]

/-- Two versions have the same hash if and only if one of the calls overlooks a version. -/
theorem distinct_run_iff {w : World} (calls : List Registrant) (alone : w.rivals = [])
    (empty : w.store.versions name = []) (schedule : List Nat) :
    ((start w calls).run schedule).Distinct name
      ↔ ∀ before between after i, schedule = before ++ [i] ++ between ++ [i] ++ after →
        ¬ (start w calls).Overlooks name before between i := by
  constructor
  · rintro hdistinct before between after i rfl hover
    obtain ⟨l, a, b, hversions, ha, hash⟩ := hover.exists_same_hash alone
    have hearlier := versions_extend (start w calls) alone (before ++ [i] ++ between ++ [i]) after
      name
    rw [hversions] at hearlier
    have hpair := hdistinct.sublist hearlier.sublist
    exact (List.pairwise_append.1 hpair).2.2 a ha b (List.mem_singleton_self b) hash
  · intro h
    induction schedule using List.reverseRecOn with
    | nil =>
      rw [Distinct, versions, run_nil, start, empty]
      exact .nil
    | append_singleton schedule j ih =>
      have hbefore := ih fun before between after i hs hover =>
        h before between (after ++ [j]) i (by rw [hs]; simp) hover
      rw [run_snoc]
      cases hj : ((start w calls).run schedule).calls[j]? with
      | none => rwa [step_of_none hj]
      | some r =>
        obtain ⟨r', added, move⟩ := exists_move hj (rivals_run alone schedule)
        have hcreated := move.getElem?_calls j
        rw [if_pos rfl, ← run_snoc] at hcreated
        rw [Distinct, move.versions_eq]
        cases move.request with
        | created number stamp stage free =>
          by_cases hname : r.draft.name = name
          · rw [List.filter_cons_of_pos (by simp [hname])]
            rw [hname] at free
            refine List.pairwise_append.2 ⟨hbefore, List.pairwise_singleton _ _, ?_⟩
            intro a ha b hb hash
            cases List.mem_singleton.1 hb
            obtain ⟨before, between, rfl, hover⟩ := overlooks_of_create calls alone empty hj hname
              stage free hcreated ⟨a, ha, hash⟩
            exact h before between [] j (by simp) hover
          · rw [List.filter_cons_of_neg (by simp [hname])]
            simpa [Distinct] using hbefore
        | found | missing | numbered | unreadable | taken | ended => simpa [Distinct] using hbefore

/-- Of two calls with one spec the first asks for the hash, the second registers, and the first goes
on: it does not look for the hash again, and both versions are stored. -/
theorem not_forall_distinct_run :
    ¬ ∀ (w : World) (name : String) (calls : List Registrant) (schedule : List Nat),
      w.rivals = [] → w.store.versions name = [] →
      ((start w calls).run schedule).Distinct name := by
  intro h
  have hdistinct := h .initial "training" [.ofName "training", .ofName "training"]
    [0, 1, 1, 1, 0, 0] rfl rfl
  obtain ⟨a, b, hversions, hash⟩ : ∃ a b : Record PipelineVersion,
      ((start .initial [.ofName "training", .ofName "training"]).run [0, 1, 1, 1, 0, 0]).versions
        "training" = [a, b] ∧ a.body.versionHash = b.body.versionHash := ⟨_, _, rfl, rfl⟩
  rw [Distinct, hversions] at hdistinct
  exact List.rel_of_pairwise_cons hdistinct (List.mem_singleton_self b) hash

/-- Two calls that look up their numbers one after the other leave one version. -/
theorem distinct_run_iff_lost_number :
    World.initial.rivals = [] ∧ World.initial.store.versions "training" = []
    ∧ ∀ before between after i, [0, 1, 0, 1, 0, 1] = before ++ [i] ++ between ++ [i] ++ after →
      ¬ (start .initial [.ofName "training", .ofName "training"]).Overlooks "training" before
        between i := by
  refine ⟨rfl, rfl, (distinct_run_iff [.ofName "training", .ofName "training"] rfl rfl
    [0, 1, 0, 1, 0, 1]).1 ?_⟩
  have hversions : ∃ a, ((start .initial [.ofName "training", .ofName "training"]).run
      [0, 1, 0, 1, 0, 1]).versions "training" = [a] := ⟨_, rfl⟩
  obtain ⟨a, hversions⟩ := hversions
  rw [Distinct, hversions]
  exact List.pairwise_singleton _ _

end Race

end Pipework
