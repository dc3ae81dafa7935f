import Mathlib.Data.Nat.ModEq
import Pipework.Proofs.Registration.Distinct
import Std.Data.String.ToNat

/-!
# Lost races

A call that finds its number taken has lost a race: since it looked up the newest version another
one has come. It asks for a new version three times at most, and `Race.lost_three_races` says that
it gives up only if others have created three versions of its pipeline meanwhile. Each number that
it loses is charged to a version of its own (`Registration.Outrun`).
-/

namespace Pipework

theorem Store.calls_createPipeline (s : Store) (stamp : Stamp) (v : PipelineVersion) :
    (s.createPipeline stamp v).2.calls.createPipeline = s.calls.createPipeline + 1 := by
  simp only [createPipeline]
  split <;> rfl

namespace Registration

variable {s : Store} {w : World} {r r' : Registration} {added : List (Record PipelineVersion)}

/-- The version that a registration has created, if it has. -/
def own (r : Registration) : List (Record PipelineVersion) :=
  match r.stage with
  | .created record => [record]
  | _ => []

/-- How often a registration has asked for a new version. -/
def asked (r : Registration) : Nat := r.losses + r.own.length

theorem stage_of_failed {cause : StoreError} (h : r.result? = some (.error cause)) :
    r.stage = .failed cause := by
  unfold result? at h
  cases hr : r.stage <;> simp_all

/-- A number that is taken uses up one attempt, and the last one ends the registration. -/
theorem lost_cases (r : Registration) :
    (r.losses + 1 < attempts ∧ r.lost = { r with stage := .findHash, losses := r.losses + 1 })
    ∨ (attempts ≤ r.losses + 1 ∧ r.lost = { r with
        stage := .failed (.conflict "Pipeline" (r.draft.name ++ ":" ++ r.draft.versionHash))
        losses := r.losses + 1 }) := by
  unfold lost
  split
  · exact .inl ⟨‹_›, rfl⟩
  · exact .inr ⟨by omega, rfl⟩

theorem asked_lost (r : Registration) : r.lost.asked = r.losses + 1 := by
  rcases r.lost_cases with ⟨-, h⟩ | ⟨-, h⟩ <;> simp [h, asked, own]

theorem Request.own_eq (request : Request s r r' added) : r'.own = r.own ++ added := by
  cases request with
  | taken _ stage => rcases r.lost_cases with ⟨-, h⟩ | ⟨-, h⟩ <;> simp [own, h, stage]
  | ended => simp
  | found _ stage | missing stage | numbered _ stage | unreadable _ stage | created _ _ stage =>
    simp [own, stage]

theorem Request.asked_le (request : Request s r r' added) (live : r.Underway)
    (h : r.asked ≤ attempts) : r'.asked ≤ attempts := by
  cases request with
  | taken _ stage =>
    have := live (by simp [result?, stage])
    rw [asked_lost]
    omega
  | created _ _ stage =>
    have := live (by simp [result?, stage])
    simp only [asked, own, List.length_singleton]
    omega
  | ended => exact h
  | found _ stage | missing stage | numbered _ stage | unreadable _ stage =>
    simpa [asked, own, stage] using h

/-- The store counts what a registration asks for. -/
theorem exists_asked_step (r : Registration) (alone : w.rivals = []) :
    ∃ n, (r.step w).2.store.calls.createPipeline = w.store.calls.createPipeline + n
      ∧ (r.step w).1.asked = r.asked + n := by
  cases hr : r.stage with
  | findHash | findNumber =>
    simp only [step, hr, World.listPipelines]
    refine ⟨0, ?_⟩
    split <;> simp [asked, own, hr, Store.listPipelines]
  | create number =>
    have hcalls := w.store.calls_createPipeline w.nextStamp.1 (r.draft.numbered number)
    have hasked : r.asked = r.losses := by simp [asked, own, hr]
    refine ⟨1, ?_⟩
    by_cases taken : w.store.hasVersion r.draft.name (toString number) = true
    · have answer := (Store.createPipeline_of_taken (v := r.draft.numbered number)
        w.nextStamp.1 taken).1
      simp only [step, hr, World.createPipeline_of_no_rivals alone, answer]
      exact ⟨hcalls, by rw [asked_lost, hasked]⟩
    · have answer := (Store.createPipeline_of_free (v := r.draft.numbered number)
        w.nextStamp.1 taken).1
      simp only [step, hr, World.createPipeline_of_no_rivals alone, answer]
      exact ⟨hcalls, by rw [hasked]; rfl⟩
  | found | created | failed =>
    simp only [step, hr]
    exact ⟨0, rfl, rfl⟩

/-- How a registration stands to the versions of its pipeline, of which there are `len` by now and
were `base` at its first request: at least as many have come since as it has lost numbers. The
number that it asks for was looked up after that. -/
def Outrun (base len : Nat) (r : Registration) : Prop :=
  match r.stage with
  | .findHash | .findNumber => base + r.losses ≤ len
  | .create number => ∃ count, number = numberAfter count ∧ base + r.losses ≤ count ∧ count ≤ len
  | .failed cause =>
    cause = .conflict "Pipeline" (r.draft.name ++ ":" ++ r.draft.versionHash)
      ∧ r.losses = attempts ∧ base + attempts ≤ len
  | .found _ | .created _ => True

theorem Outrun.mono {base len len' : Nat} (h : r.Outrun base len) (hle : len ≤ len') :
    r.Outrun base len' := by
  unfold Outrun at h ⊢
  cases hr : r.stage with
  | findHash | findNumber =>
    simp only [hr] at h ⊢
    omega
  | create number =>
    simp only [hr] at h ⊢
    obtain ⟨count, hnumber, hbase, hlen⟩ := h
    exact ⟨count, hnumber, hbase, hlen.trans hle⟩
  | failed cause =>
    simp only [hr] at h ⊢
    obtain ⟨hcause, hlosses, hlen⟩ := h
    exact ⟨hcause, hlosses, hlen.trans hle⟩
  | found | created => trivial

theorem numberAfter_inj {a b : Nat} (ha : a < Nat.pow 2 64) (hb : b < Nat.pow 2 64)
    (h : numberAfter a = numberAfter b) : a = b :=
  (Nat.ModEq.add_right_cancel' 1 h).eq_of_lt_of_lt ha hb

end Registration

/-- A number that was the next one when it was looked up, and is taken, is not the next one any
more. -/
theorem Numbered.lt_of_taken {l : List (Record PipelineVersion)} (h : Numbered l)
    (room : l.length < Nat.pow 2 64) {count : Nat} (hcount : count ≤ l.length)
    (taken : ∃ record ∈ l, record.body.version = toString (Registration.numberAfter count)) :
    count < l.length := by
  obtain ⟨record, hrecord, hversion⟩ := taken
  obtain ⟨k, hk, rfl⟩ := List.getElem_of_mem hrecord
  rw [h.version_getElem hk] at hversion
  have hnumber := Nat.repr_inj.1 hversion
  have := Registration.numberAfter_inj (by omega) (by omega) hnumber
  omega

namespace Registration

/-- A request that is refused is charged to a version that has come since the look-up. -/
theorem Request.outrun {base : Nat} (request : Request s r r' added) (live : r.Underway)
    (numbered : Numbered (s.versions r.draft.name))
    (room : (s.versions r.draft.name).length < Nat.pow 2 64)
    (h : r.Outrun base (s.versions r.draft.name).length) :
    r'.Outrun base (s.versions r.draft.name).length := by
  cases request with
  | found | created => trivial
  | missing stage =>
    simp only [Outrun, stage] at h
    exact h
  | numbered number stage next =>
    simp only [Outrun, stage] at h
    rw [numbered.nextNumber_getLast?] at next
    exact ⟨_, (Except.ok.inj next).symm, h, Nat.le_refl _⟩
  | unreadable cause stage next =>
    rw [numbered.nextNumber_getLast?] at next
    cases next
  | taken number stage taken =>
    simp only [Outrun, stage] at h
    obtain ⟨count, rfl, hbase, hlen⟩ := h
    have hlost := numbered.lt_of_taken room hlen taken
    have := live (by simp [result?, stage])
    rcases r.lost_cases with ⟨-, hr⟩ | ⟨hlast, hr⟩
    · simp only [hr, Outrun]
      omega
    · simp only [hr, Outrun, true_and]
      omega
  | ended => exact h

end Registration

/-- A call that registers a pipeline with this code and without steps. -/
def Registrant.ofCode (name code : String) : Registrant where
  pipeline := (Pipeline.ofName name).withSourceCode code
  spec := { version := Spec.currentVersion, steps := [] }
  versionHash :=
    Digest.md5Hex (Spec.identityText { version := Spec.currentVersion, steps := [] } ++ code)
  hashed := by
    rw [← String.append_empty (s := _ ++ code)]
    rfl

namespace Race

open Registration

/-- The versions that the requests of a schedule create, and the calls that make these requests. -/
def creations : Race → List Nat → List (Nat × Record PipelineVersion)
  | _, [] => []
  | race, i :: schedule =>
    ((race.step i).world.store.pipelines.drop race.world.store.pipelines.length).map (i, ·)
      ++ creations (race.step i) schedule

/-- How often a call asks for a new version in a schedule. -/
def createRequests (i : Nat) : Race → List Nat → Nat
  | _, [] => 0
  | race, j :: schedule =>
    (if j = i then (race.step j).world.store.calls.createPipeline
      - race.world.store.calls.createPipeline else 0) + createRequests i (race.step j) schedule

/-- The `i`-th call makes its first request after `before`, and its last one after `between`. -/
structure Spans (race : Race) (i : Nat) (before between : List Nat) : Prop where
  first : i ∉ before
  underway : ∃ r, (race.run (before ++ [i] ++ between)).calls[i]? = some r ∧ r.result? = none
  ended : ∃ r, (race.run (before ++ [i] ++ between ++ [i])).calls[i]? = some r ∧ r.result?.isSome

variable {race : Race} {i : Nat} {r r' : Registration} {added : List (Record PipelineVersion)}
  {name : String}

theorem creations_append (race : Race) (s t : List Nat) :
    race.creations (s ++ t) = race.creations s ++ (race.run s).creations t := by
  induction s generalizing race with
  | nil => rfl
  | cons i s ih => simp [creations, ih, run]

theorem createRequests_append (race : Race) (s t : List Nat) :
    race.createRequests i (s ++ t) = race.createRequests i s + (race.run s).createRequests i t := by
  induction s generalizing race with
  | nil => simp [createRequests]
  | cons j s ih =>
    simp only [List.cons_append, createRequests, ih, run, List.foldl_cons]
    omega

/-- Every version is created by one of the calls that are scheduled. -/
theorem fst_mem_of_mem_creations {schedule : List Nat} {c : Nat × Record PipelineVersion}
    (h : c ∈ race.creations schedule) : c.1 ∈ schedule := by
  induction schedule generalizing race with
  | nil => cases h
  | cons j schedule ih =>
    simp only [creations, List.mem_append, List.mem_map] at h
    rcases h with ⟨record, -, rfl⟩ | h
    · exact List.mem_cons_self
    · exact List.mem_cons_of_mem _ (ih h)

theorem Move.creations_eq (move : race.Move i r r' added) :
    race.creations [i] = added.map (i, ·) := by
  simp [creations, move.pipelines]

theorem creations_of_none (h : race.calls[i]? = none) : race.creations [i] = [] := by
  simp [creations, step_of_none h]

theorem Move.asked_eq (move : race.Move i r r' added) (alone : race.world.rivals = []) :
    r'.asked = r.asked + race.createRequests i [i] := by
  obtain ⟨n, hcalls, hasked⟩ := exists_asked_step r alone
  have hstep : race.step i
      = { calls := race.calls.set i (r.step race.world).1, world := (r.step race.world).2 } := by
    simp only [step, move.call]
  have hr' : (r.step race.world).1 = r' := by
    have hi := (List.getElem?_eq_some_iff.1 move.call).1
    have h := move.getElem?_calls i
    rw [hstep, List.getElem?_set_self hi, if_pos rfl] at h
    exact Option.some.inj h
  rw [← hr', hasked]
  simp only [createRequests, hstep, hcalls, if_true]
  omega

theorem createRequests_of_ne (race : Race) {j : Nat} (h : j ≠ i) :
    race.createRequests i [j] = 0 := by simp [createRequests, h]

/-- The versions that a call has created by now. -/
theorem Fresh.own_run (fresh : race.Fresh) (alone : race.world.rivals = []) {schedule : List Nat}
    (h : (race.run schedule).calls[i]? = some r) :
    (race.creations schedule).filter (·.1 = i) = r.own.map (i, ·) := by
  revert h
  apply call_induction (P := fun s r => (race.creations s).filter (·.1 = i) = r.own.map (i, ·))
    alone
  case start =>
    intro r hr
    rw [fresh r (List.mem_of_getElem? hr)]
    rfl
  case own =>
    intro s r r' added move ih
    have hnew : (added.map (i, ·)).filter (·.1 = i) = added.map (i, ·) :=
      List.filter_eq_self.2 (by simp)
    rw [creations_append, List.filter_append, ih, move.creations_eq, hnew, move.request.own_eq,
      List.map_append]
  case others =>
    intro s j r hne ih
    have hnone : ((race.run s).creations [j]).filter (·.1 = i) = [] := by
      refine List.filter_eq_nil_iff.2 fun c hc => ?_
      simpa [List.mem_singleton.1 (fst_mem_of_mem_creations hc)] using hne
    rw [creations_append, List.filter_append, ih, hnone, List.append_nil]

/-- How often a call has asked for a new version by now. -/
theorem Fresh.asked_run (fresh : race.Fresh) (alone : race.world.rivals = []) {schedule : List Nat}
    (h : (race.run schedule).calls[i]? = some r) :
    race.createRequests i schedule = r.asked ∧ r.asked ≤ attempts := by
  revert h
  apply call_induction (P := fun s r => race.createRequests i s = r.asked ∧ r.asked ≤ attempts)
    alone
  case start =>
    intro r hr
    rw [fresh r (List.mem_of_getElem? hr)]
    exact ⟨rfl, Nat.zero_le _⟩
  case own =>
    intro s r r' added move ⟨ih, hle⟩
    have live := (fresh.remaining_run alone s move.call).1
    rw [createRequests_append, ih, ← move.asked_eq (rivals_run alone s)]
    exact ⟨rfl, move.request.asked_le live hle⟩
  case others =>
    intro s j r hne ⟨ih, hle⟩
    rw [createRequests_append, createRequests_of_ne _ hne]
    exact ⟨ih, hle⟩

/-- There are as many more versions of a pipeline as calls have created. -/
theorem length_versions_run (alone : race.world.rivals = []) (schedule : List Nat) (name : String) :
    ((race.run schedule).versions name).length = (race.versions name).length
      + (race.creations schedule).countP fun c => c.2.body.name = name := by
  induction schedule using List.reverseRecOn with
  | nil => rfl
  | append_singleton s j ih =>
    rw [run_snoc, creations_append, List.countP_append]
    cases hj : (race.run s).calls[j]? with
    | none =>
      rw [step_of_none hj, creations_of_none hj, ih]
      rfl
    | some c =>
      obtain ⟨c', added, move⟩ := exists_move hj (rivals_run alone s)
      rw [move.versions_eq, move.creations_eq, List.length_append, ih, List.countP_map,
        List.countP_eq_length_filter (l := added)]
      simp only [Function.comp_def]
      omega

theorem rivals_start_run {w : World} (calls : List Registrant) (alone : w.rivals = [])
    (schedule : List Nat) : ((start w calls).run schedule).world.rivals = [] :=
  rivals_run alone schedule

/-- A call that has not been scheduled yet makes its first request next. -/
theorem Fresh.eq_of_notMem (fresh : race.Fresh) (alone : race.world.rivals = []) {s : List Nat}
    (hi : i ∉ s) (h : (race.run s).calls[i]? = some r) : r = { draft := r.draft } := by
  have hstart := getElem?_run_of_notMem alone [] hi
  rw [List.nil_append, run_nil, h] at hstart
  exact fresh r (List.mem_of_getElem? hstart.symm)

/-- Since the first request of a call as many versions of its pipeline have come as it has lost
numbers, and each number that it loses next will be charged to a further one. -/
theorem outrun_run {w : World} (calls : List Registrant) (alone : w.rivals = [])
    (empty : w.store.versions name = []) {before t : List Nat} (hi : i ∉ before)
    (h : ((start w calls).run (before ++ t)).calls[i]? = some r) (hname : r.draft.name = name)
    (room : (((start w calls).run (before ++ t)).versions name).length < Nat.pow 2 64) :
    r.Outrun (((start w calls).run before).versions name).length
      (((start w calls).run (before ++ t)).versions name).length := by
  rw [run_append] at h room ⊢
  have hrivals := rivals_start_run calls alone
  have hgrow : ∀ s j, ((((start w calls).run before).run s).versions name).length
      ≤ ((((start w calls).run before).run (s ++ [j])).versions name).length := fun s j =>
    (versions_extend ((start w calls).run before) (hrivals before) s [j] name).length_le
  revert room hname h
  apply call_induction (P := fun s r => r.draft.name = name →
    ((((start w calls).run before).run s).versions name).length < Nat.pow 2 64 →
    r.Outrun (((start w calls).run before).versions name).length
      ((((start w calls).run before).run s).versions name).length) (hrivals before)
  case start =>
    intro r hr _ _
    rw [(fresh_start w calls).eq_of_notMem alone hi hr]
    exact Nat.le_refl _
  case own =>
    intro s r r' added move ih hname room
    have hdraft := move.request.draft_eq
    have room' := (hgrow s i).trans_lt room
    have hnumbering := numbering_run calls alone empty (before ++ s)
    have hcall := move.call
    rw [hdraft] at hname
    rw [run_append] at hnumbering
    rw [← run_append] at hcall
    have live := ((fresh_start w calls).remaining_run alone (before ++ s) hcall).1
    subst hname
    exact (move.request.outrun live hnumbering.numbered room' (ih rfl room')).mono (hgrow s i)
  case others =>
    intro s j r _ ih hname room
    exact (ih hname ((hgrow s j).trans_lt room)).mono (hgrow s j)

/-- A call that has ended was under way until one of its requests, and stands still since then. -/
theorem exists_last (fresh : race.Fresh) (alone : race.world.rivals = []) {schedule : List Nat}
    (h : (race.run schedule).calls[i]? = some r) (ended : r.result?.isSome) :
    ∃ s after r₀, schedule = s ++ [i] ++ after ∧ (race.run s).calls[i]? = some r₀
      ∧ r₀.result? = none ∧ (race.run (s ++ [i])).calls[i]? = some r := by
  revert ended h
  apply call_induction (P := fun t r => r.result?.isSome → ∃ s after r₀, t = s ++ [i] ++ after
    ∧ (race.run s).calls[i]? = some r₀ ∧ r₀.result? = none
    ∧ (race.run (s ++ [i])).calls[i]? = some r) alone
  case start =>
    intro r hr ended
    rw [fresh r (List.mem_of_getElem? hr)] at ended
    cases ended
  case own =>
    intro t r r' added move ih ended
    cases hr : r.result? with
    | none =>
      refine ⟨t, [], r, by simp, move.call, hr, ?_⟩
      rw [run_snoc, move.getElem?_calls, if_pos rfl]
    | some result =>
      obtain ⟨rfl, -⟩ := move.request.eq_of_result? hr
      obtain ⟨s, after, r₀, rfl, hlast⟩ := ih ended
      exact ⟨s, after ++ [i], r₀, by simp, hlast⟩
  case others =>
    intro t j r _ ih ended
    obtain ⟨s, after, r₀, rfl, hlast⟩ := ih ended
    exact ⟨s, after ++ [j], r₀, by simp, hlast⟩

/-- A request creates nothing unless the call that makes it does. -/
theorem creations_eq_nil (h : ∀ v ∈ race.creations [i], v.1 ≠ i) : race.creations [i] = [] :=
  List.eq_nil_iff_forall_not_mem.2 fun v hv =>
    h v hv (List.mem_singleton.1 (fst_mem_of_mem_creations hv))

/-- Where a call creates nothing, all that is created between two of its requests is by others. -/
theorem length_versions_between (alone : race.world.rivals = []) {between : List Nat}
    (h : ∀ v ∈ race.creations ([i] ++ between ++ [i]), v.1 ≠ i) (name : String) :
    ((race.run ([i] ++ between ++ [i])).versions name).length = (race.versions name).length
      + ((race.run [i]).creations between).countP fun v => v.1 ≠ i ∧ v.2.body.name = name := by
  rw [length_versions_run alone]
  rw [creations_append, creations_append] at h ⊢
  simp only [List.forall_mem_append] at h
  obtain ⟨⟨hfirst, hbetween⟩, hlast⟩ := h
  rw [creations_eq_nil hfirst, creations_eq_nil hlast, List.nil_append, List.append_nil]
  congr 1
  apply List.countP_congr
  intro v hv
  simp [hbetween v hv]

/-- A call that has failed without creating a version has made more than one request, and numbers
were lost in between. -/
theorem exists_spans_of_failed {w : World} (calls : List Registrant) (alone : w.rivals = [])
    (empty : w.store.versions name = []) {schedule : List Nat} {cause : StoreError}
    (hr : ((start w calls).run schedule).calls[i]? = some r) (hname : r.draft.name = name)
    (hstage : r.stage = .failed cause)
    (room : (((start w calls).run schedule).versions name).length < Nat.pow 2 64)
    (hnone : ∀ v ∈ (start w calls).creations schedule, v.1 ≠ i) :
    ∃ before between after, schedule = before ++ [i] ++ between ++ [i] ++ after
      ∧ (start w calls).Spans i before between
      ∧ r.Outrun (((start w calls).run before).versions name).length
          (((start w calls).run (before ++ [i] ++ between ++ [i])).versions name).length := by
  have ended : r.result?.isSome := by simp [result?, hstage]
  obtain ⟨s, after, r₀, rfl, hr₀, hunder, hr₁⟩ := exists_last (fresh_start w calls) alone hr ended
  have room₁ : (((start w calls).run (s ++ [i])).versions name).length < Nat.pow 2 64 :=
    (versions_extend (start w calls) alone (s ++ [i]) after name).length_le.trans_lt room
  -- The first request cannot be the one that fails, as nothing has come since.
  have hi : i ∈ s := by
    by_contra hi
    have hlost := outrun_run calls alone empty hi hr₁ hname room₁
    have hsame := length_versions_run (rivals_start_run calls alone s) [i] name
    rw [creations_append, creations_append] at hnone
    simp only [List.forall_mem_append] at hnone
    rw [creations_eq_nil hnone.1.2, ← run_append, List.countP_nil] at hsame
    simp only [Outrun, hstage, attempts] at hlost
    omega
  obtain ⟨before, between, rfl, hbefore⟩ := List.eq_append_cons_of_mem hi
  have hsplit : before ++ i :: between = before ++ [i] ++ between := by simp
  rw [hsplit] at hr₀ hr₁ room₁ ⊢
  have hlost := outrun_run calls alone empty (t := [i] ++ between ++ [i]) hbefore
    (by simpa using hr₁) hname (by simpa using room₁)
  exact ⟨before, between, after, rfl, ⟨hbefore, ⟨r₀, hr₀, hunder⟩, ⟨r, hr₁, ended⟩⟩,
    by simpa using hlost⟩

/-- A call asks for a new version three times at most. It gives up only if others have created three
versions of its pipeline between its first request and its last one, and has created none itself.
Numbers have 64 bits, which is enough for as many versions as fit in memory. -/
theorem lost_three_races {w : World} (calls : List Registrant) (alone : w.rivals = [])
    (empty : w.store.versions name = []) (schedule : List Nat) (i : Nat) (c : Registrant)
    (r : Registration) (hc : calls[i]? = some c)
    (hr : ((start w calls).run schedule).calls[i]? = some r) :
    (start w calls).createRequests i schedule ≤ 3
    ∧ ∀ cause, c.pipeline.name = name → r.result? = some (.error cause) →
      (((start w calls).run schedule).versions name).length < Nat.pow 2 64 →
      cause = .conflict "Pipeline" (name ++ ":" ++ c.versionHash)
      ∧ (start w calls).createRequests i schedule = 3
      ∧ (∀ v ∈ (start w calls).creations schedule, v.1 ≠ i)
      ∧ ∃ before between after, schedule = before ++ [i] ++ between ++ [i] ++ after
        ∧ (start w calls).Spans i before between
        ∧ 3 ≤ (((start w calls).run (before ++ [i])).creations between).countP
            fun v => v.1 ≠ i ∧ v.2.body.name = name := by
  have fresh := fresh_start w calls
  obtain ⟨hasked, hle⟩ := fresh.asked_run alone hr
  refine ⟨hasked.trans_le hle, fun cause hname hfailed room => ?_⟩
  have hdraft : r.draft = c.draft w.store := draft_of_registrant alone hr hc
  have hname' : r.draft.name = name := by rw [hdraft, ← hname]; rfl
  have hstage : r.stage = .failed cause := stage_of_failed hfailed
  have hown : r.own = [] := by simp [own, hstage]
  have hnone : ∀ v ∈ (start w calls).creations schedule, v.1 ≠ i := by
    simpa [hown, List.filter_eq_nil_iff] using fresh.own_run alone hr
  obtain ⟨before, between, after, hsplit, hspans, hlost⟩ :=
    exists_spans_of_failed calls alone empty hr hname' hstage room hnone
  simp only [Outrun, hstage, attempts] at hlost
  obtain ⟨hcause, hlosses, hcount⟩ := hlost
  refine ⟨?_, ?_, hnone, before, between, after, hsplit, hspans, ?_⟩
  · rw [hcause, hname', hdraft]
    rfl
  · rw [hasked, asked, hlosses, hown]
    rfl
  · have hmeanwhile : ∀ v ∈ ((start w calls).run before).creations ([i] ++ between ++ [i]),
        v.1 ≠ i := by
      intro v hv
      apply hnone
      rw [hsplit, List.append_assoc before, List.append_assoc before, List.append_assoc before,
        creations_append, creations_append]
      exact List.mem_append_right _ (List.mem_append_left _ hv)
    have hbetween := length_versions_between (rivals_start_run calls alone before) hmeanwhile name
    rw [← run_append, ← run_append, ← List.append_assoc, ← List.append_assoc] at hbetween
    omega

/-- Four calls for one pipeline, the first of which has other code than the rest. -/
def crowd : List Registrant :=
  [.ofCode "training" "def training():\n    pass\n", .ofName "training", .ofName "training",
    .ofName "training"]

/-- Three times one of the others creates its version between a look-up of the first and its
request. -/
def crowdSchedule : List Nat := [1, 2, 3, 0, 0, 1, 1, 0, 0, 0, 2, 2, 0, 0, 0, 3, 3, 0]

theorem exists_failed_crowd : ∃ r cause,
    ((start .initial crowd).run crowdSchedule).calls[0]? = some r
      ∧ r.result? = some (.error cause) := by
  have hfailed : (((start .initial crowd).run crowdSchedule).calls[0]?.bind (·.result?)).any
      (fun result => !result.isOk) = true := by decide +kernel
  cases hr : ((start .initial crowd).run crowdSchedule).calls[0]? with
  | none => simp [hr] at hfailed
  | some r =>
    refine ⟨r, ?_⟩
    rw [hr, Option.bind_some] at hfailed
    rcases hresult : r.result? with _ | cause | record
    · simp [hresult] at hfailed
    · exact ⟨cause, rfl, rfl⟩
    · simp [hresult, Except.isOk, Except.toBool] at hfailed

/-- The first of the four calls gives up after it has lost to each of the others. -/
theorem lost_three_races_crowd : ∃ r cause,
    ((start .initial crowd).run crowdSchedule).calls[0]? = some r
      ∧ r.result? = some (.error cause)
      ∧ (start .initial crowd).createRequests 0 crowdSchedule = 3
      ∧ ∃ before between after, crowdSchedule = before ++ [0] ++ between ++ [0] ++ after
        ∧ (start .initial crowd).Spans 0 before between
        ∧ 3 ≤ (((start .initial crowd).run (before ++ [0])).creations between).countP
            fun v => v.1 ≠ 0 ∧ v.2.body.name = "training" := by
  obtain ⟨r, cause, hr, hfailed⟩ := exists_failed_crowd
  have room : (((start .initial crowd).run crowdSchedule).versions "training").length
      < Nat.pow 2 64 := by decide +kernel
  have empty : World.initial.store.versions "training" = [] := rfl
  obtain ⟨-, hlost⟩ := lost_three_races crowd rfl empty crowdSchedule 0 _ r rfl hr
  obtain ⟨-, hasked, -, hspan⟩ := hlost cause rfl hfailed room
  exact ⟨r, cause, hr, hfailed, hasked, hspan⟩

end Race

end Pipework
