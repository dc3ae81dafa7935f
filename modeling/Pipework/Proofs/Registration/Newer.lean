import Pipework.Proofs.Digest.Hex
import Pipework.Proofs.Dispatch.History
import Pipework.Proofs.Registration.Numbering

/-!
# Numbers of new versions

A new version gets the number after that of the newest one, whatever the older ones are. Where the
newest has the greatest number of all, this one is free and greater still. Otherwise, as after a
version without number, it may be taken, and then no attempt gets any further
(`Registration.Undecided.register_of_taken`). `Registrant.registersNewer_iff` says that there is no
third way.
-/

namespace Pipework

namespace PipelineVersion

/-- The number of a version, if it has one. -/
def number? (v : PipelineVersion) : Option Nat :=
  (Text.natural? (Nat.pow 2 64) v.version).toOption

/-- Whether a version has a number below `2^63`, or none. -/
def Versioned (v : PipelineVersion) : Prop :=
  v.version = unversioned ∨ ∃ n ∈ v.number?, n < Nat.pow 2 63

instance (v : PipelineVersion) : Decidable v.Versioned := by
  unfold Versioned
  infer_instance

variable {v : PipelineVersion} {n : Nat}

theorem number?_of_toString (hn : n < Nat.pow 2 64) (h : v.version = toString n) :
    v.number? = some n := by
  rw [number?, h, Text.natural?_toString hn]
  rfl

theorem number?_of_unversioned (h : v.version = unversioned) : v.number? = none := by
  rw [number?, h]
  decide

theorem Versioned.lt (h : v.Versioned) (hn : v.number? = some n) : n < Nat.pow 2 63 := by
  rcases h with h | ⟨m, hm, hlt⟩
  · simp [number?_of_unversioned h] at hn
  · cases hn.symm.trans hm
    exact hlt

end PipelineVersion

namespace Store

/-- The numbers of the versions of a pipeline, in the order of their creation. -/
def numbers (s : Store) (name : String) : List Nat :=
  (s.versions name).filterMap (·.body.number?)

/-- The number of the newest version of a pipeline, and zero if it has none. -/
def newestNumber (s : Store) (name : String) : Nat :=
  ((s.versions name).getLast?.bind (·.body.number?)).getD 0

variable {s : Store} {name : String}

theorem mem_numbers {n : Nat} :
    n ∈ s.numbers name ↔ ∃ v ∈ s.versions name, v.body.number? = some n := by
  simp [numbers]

/-- The next number is the one after that of the newest version. -/
theorem nextNumber_newest (h : ∀ v ∈ s.versions name, v.body.Versioned) :
    Registration.nextNumber name (s.versions name).getLast? = .ok (s.newestNumber name + 1) := by
  unfold newestNumber
  cases hnewest : (s.versions name).getLast? with
  | none => rfl
  | some v =>
    rcases h v (List.mem_of_getLast? hnewest) with hnone | ⟨n, hn, hlt⟩
    · simp [Registration.nextNumber, hnone, PipelineVersion.number?_of_unversioned hnone]
    · have hread : Text.natural? (Nat.pow 2 64) v.body.version = .ok n := by
        revert hn
        unfold PipelineVersion.number?
        cases Text.natural? (Nat.pow 2 64) v.body.version <;> simp [Except.toOption]
      have hnumbered : v.body.version ≠ PipelineVersion.unversioned := by
        intro hnone
        simp [PipelineVersion.number?_of_unversioned hnone] at hn
      have hroom : n + 1 < Nat.pow 2 64 := by
        have : Nat.pow 2 63 < Nat.pow 2 64 := by decide
        omega
      simp only [Registration.nextNumber, if_neg hnumbered, hread, Nat.mod_eq_of_lt hroom,
        Option.bind_some, Option.mem_def.1 hn, Option.getD_some]

theorem newestNumber_lt (h : ∀ v ∈ s.versions name, v.body.Versioned) :
    s.newestNumber name < Nat.pow 2 63 := by
  unfold newestNumber
  cases hnewest : (s.versions name).getLast? with
  | none => decide
  | some v =>
    cases hn : v.body.number? with
    | none => simp [hn]
    | some n => simpa [hn] using (h v (List.mem_of_getLast? hnewest)).lt hn

end Store

namespace Registration

variable {r : Registration} {draft : VersionDraft} {number : Nat} {w w' : World}

/-- What a registration meets whose hash is new, without rivals, and the number that it asks for. -/
structure Undecided (draft : VersionDraft) (number : Nat) (w : World) : Prop where
  alone : w.rivals = []
  unknown : ∀ v ∈ w.store.versions draft.name, v.body.versionHash ≠ draft.versionHash
  next : nextNumber draft.name (w.store.versions draft.name).getLast? = .ok number

namespace Undecided

theorem of_pipelines_eq (h : Undecided draft number w)
    (same : w'.store.pipelines = w.store.pipelines) (alone : w'.rivals = []) :
    Undecided draft number w' := by
  have hversions : w'.store.versions draft.name = w.store.versions draft.name := by
    simp only [Store.versions, same]
  exact ⟨alone, hversions ▸ h.unknown, hversions ▸ h.next⟩

/-- An attempt looks up hash and number first, which changes no version. -/
theorem exists_lookUp (h : Undecided r.draft number w) (hr : r.stage = .findHash) (n : Nat) :
    ∃ w', steps (n + 2) r w = steps n { r with stage := .create number } w'
      ∧ w'.store.pipelines = w.store.pipelines ∧ Undecided r.draft number w' := by
  have hfirst := (w.store.first?_listPipelines_hash r.draft.name r.draft.versionHash).trans
    (List.getLast?_eq_none_iff.2 (List.filter_eq_nil_iff.2 fun v hv => by simp [h.unknown v hv]))
  obtain ⟨-, hsame, hrivals⟩ := request_findHash (w := w) hr
  have hmissing : (r.step w).1 = { r with stage := .findNumber } := by
    simp only [step, hr, World.listPipelines, hfirst]
  have h₁ := h.of_pipelines_eq hsame (hrivals.trans h.alone)
  rw [steps_succ _ (by simp [result?, hr]), hmissing]
  generalize (r.step w).2 = w₁ at hsame h₁
  have hnext := (congrArg (nextNumber r.draft.name)
    (w₁.store.first?_listPipelines r.draft.name)).trans h₁.next
  obtain ⟨-, hsame', hrivals'⟩ :=
    request_findNumber (r := { r with stage := .findNumber }) (w := w₁) rfl
  have hnumbered : (step { r with stage := .findNumber } w₁).1
      = { r with stage := .create number } := by
    simp only [step, World.listPipelines, hnext]
  refine ⟨_, ?_, hsame'.trans hsame, h₁.of_pipelines_eq hsame' (hrivals'.trans h₁.alone)⟩
  rw [steps_succ _ rfl, hnumbered]

/-- An attempt ends with a new version if the number is free. Else it is lost, and the next one
meets the same. -/
theorem exists_attempt (h : Undecided r.draft number w) (hr : r.stage = .findHash) (n : Nat) :
    ((∀ v ∈ w.store.versions r.draft.name, v.body.version ≠ toString number)
      ∧ ∃ stamp w', steps (n + 3) r w
          = ({ r with stage := .created ⟨stamp, r.draft.numbered number⟩ }, w')
        ∧ w'.store.pipelines = w.store.pipelines ++ [⟨stamp, r.draft.numbered number⟩])
    ∨ ((∃ v ∈ w.store.versions r.draft.name, v.body.version = toString number)
      ∧ ∃ w', steps (n + 3) r w = steps n r.lost w'
        ∧ w'.store.pipelines = w.store.pipelines ∧ Undecided r.draft number w') := by
  obtain ⟨w₁, hlookUp, hsame, h₁⟩ := h.exists_lookUp hr (n + 1)
  have hversions : w₁.store.versions r.draft.name = w.store.versions r.draft.name := by
    simp only [Store.versions, hsame]
  obtain ⟨added, request, hmore, hrivals⟩ :=
    request_create (r := { r with stage := .create number }) rfl h₁.alone
  rw [hlookUp, steps_succ _ rfl]
  generalize step { r with stage := .create number } w₁ = next at request hmore hrivals
  obtain ⟨r', w'⟩ := next
  cases request with
  | created number' stamp stage free =>
    cases stage
    refine .inl ⟨hversions ▸ free, stamp, w', steps_of_ended n rfl, ?_⟩
    rw [hmore, hsame]
  | taken number' stage taken =>
    cases stage
    rw [List.append_nil] at hmore
    exact .inr ⟨hversions ▸ taken, w', rfl, hmore.trans hsame, h₁.of_pipelines_eq hmore hrivals⟩
  | ended stage => cases stage
  | found _ stage | missing stage | numbered _ stage | unreadable _ stage => cases stage

/-- As nobody else writes, a number that is taken is taken in each attempt that is left. -/
theorem exists_exhausted (h : Undecided r.draft number w) (hr : r.stage = .findHash)
    (taken : ∃ v ∈ w.store.versions r.draft.name, v.body.version = toString number) (left : Nat)
    (hleft : r.losses + left + 1 = attempts) :
    ∃ r' w', steps (3 * (left + 1)) r w = (r', w')
      ∧ r'.stage = .failed (.conflict "Pipeline" (r.draft.name ++ ":" ++ r.draft.versionHash))
      ∧ w'.store.pipelines = w.store.pipelines := by
  induction left generalizing r w with
  | zero =>
    rcases h.exists_attempt hr 0 with ⟨free, -⟩ | ⟨-, w', hsteps, hsame, -⟩
    · obtain ⟨v, hv, hversion⟩ := taken
      exact absurd hversion (free v hv)
    · exact ⟨r.lost, w', hsteps, by simp [lost, show ¬ r.losses + 1 < attempts by omega], hsame⟩
  | succ left ih =>
    rcases h.exists_attempt hr (3 * (left + 1)) with ⟨free, -⟩ | ⟨-, w₁, hsteps, hsame, h₁⟩
    · obtain ⟨v, hv, hversion⟩ := taken
      exact absurd hversion (free v hv)
    · have hlost : r.lost = { r with stage := .findHash, losses := r.losses + 1 } := by
        simp [lost, show r.losses + 1 < attempts by omega]
      have htaken : ∃ v ∈ w₁.store.versions r.draft.name, v.body.version = toString number := by
        rwa [Store.versions, hsame]
      obtain ⟨r', w', hrest, hfailed, hsame'⟩ :=
        ih (r := { r with stage := .findHash, losses := r.losses + 1 }) h₁ rfl htaken
          (by simp only; omega)
      exact ⟨r', w', by rw [Nat.mul_succ, hsteps, hlost, hrest], hfailed, hsame'.trans hsame⟩

theorem register_of_free (h : Undecided draft number w)
    (free : ∀ v ∈ w.store.versions draft.name, v.body.version ≠ toString number) :
    ∃ record w', register draft w = (.ok record, w') ∧ record.body = draft.numbered number
      ∧ w'.store.pipelines = w.store.pipelines ++ [record] := by
  rcases h.exists_attempt (r := { draft }) rfl 6 with
    ⟨-, stamp, w', hsteps, hmore⟩ | ⟨⟨v, hv, hversion⟩, -⟩
  · refine ⟨⟨stamp, draft.numbered number⟩, w'.emit (event ⟨stamp, draft.numbered number⟩), ?_, rfl,
      hmore⟩
    rw [register, requestBound, attempts, hsteps]
    rfl
  · exact absurd hversion (free v hv)

/-- Where the next number is taken, a registration fails although it has no rival. -/
theorem register_of_taken (h : Undecided draft number w)
    (taken : ∃ v ∈ w.store.versions draft.name, v.body.version = toString number) :
    ∃ w', register draft w = (.error (.store (.conflict "Pipeline"
        (draft.name ++ ":" ++ draft.versionHash))), w')
      ∧ w'.store.pipelines = w.store.pipelines := by
  obtain ⟨r, w', hsteps, hfailed, hsame⟩ :=
    h.exists_exhausted (r := { draft }) rfl taken 2 rfl
  refine ⟨w', ?_, hsame⟩
  rw [register, requestBound, attempts, hsteps]
  simp only [hfailed]

end Undecided

end Registration

namespace Registrant

/-- A call whose hash is not stored yet, in a world without rivals in which the versions of its
pipeline have numbers below `2^63` or none. -/
structure Unseen (c : Registrant) (w : World) : Prop where
  alone : w.rivals = []
  unknown : ∀ v ∈ w.store.versions c.pipeline.name, v.body.versionHash ≠ c.versionHash
  versioned : ∀ v ∈ w.store.versions c.pipeline.name, v.body.Versioned

/-- Whether a call creates a version with its hash whose number is greater than each of those that
are stored under the name. -/
def RegistersNewer (c : Registrant) (w : World) : Prop :=
  ∃ record number w', Coordinator.registerSpec c.pipeline c.spec w = (.ok record, w')
    ∧ w'.store.pipelines = w.store.pipelines ++ [record]
    ∧ record.body.name = c.pipeline.name ∧ record.body.versionHash = c.versionHash
    ∧ record.body.number? = some number ∧ ∀ n ∈ w.store.numbers c.pipeline.name, n < number

variable {c : Registrant} {w : World}

namespace Unseen

theorem undecided (h : c.Unseen w) :
    Registration.Undecided (c.draft w.store) (w.store.newestNumber c.pipeline.name + 1) w :=
  ⟨h.alone, h.unknown, Store.nextNumber_newest h.versioned⟩

theorem number?_of_next (h : c.Unseen w) {v : PipelineVersion}
    (hv : v.version = toString (w.store.newestNumber c.pipeline.name + 1)) :
    v.number? = some (w.store.newestNumber c.pipeline.name + 1) := by
  have := Store.newestNumber_lt h.versioned
  have : Nat.pow 2 63 < Nat.pow 2 64 := by decide
  exact PipelineVersion.number?_of_toString (by omega) hv

theorem registerSpec_of_free (h : c.Unseen w)
    (free : ∀ v ∈ w.store.versions c.pipeline.name,
      v.body.version ≠ toString (w.store.newestNumber c.pipeline.name + 1)) :
    ∃ record w', Coordinator.registerSpec c.pipeline c.spec w = (.ok record, w')
      ∧ w'.store.pipelines = w.store.pipelines ++ [record]
      ∧ record.body.name = c.pipeline.name ∧ record.body.versionHash = c.versionHash
      ∧ record.body.number? = some (w.store.newestNumber c.pipeline.name + 1) := by
  obtain ⟨record, w', hcreated, hbody, hmore⟩ := h.undecided.register_of_free free
  refine ⟨record, w', (c.registerSpec_eq w).trans hcreated, hmore, ?_⟩
  rw [hbody]
  exact ⟨rfl, rfl, h.number?_of_next rfl⟩

theorem registerSpec_of_taken (h : c.Unseen w)
    (taken : ∃ v ∈ w.store.versions c.pipeline.name,
      v.body.version = toString (w.store.newestNumber c.pipeline.name + 1)) :
    ∃ w', Coordinator.registerSpec c.pipeline c.spec w
        = (.error (.store (.conflict "Pipeline" (c.pipeline.name ++ ":" ++ c.versionHash))), w')
      ∧ w'.store.pipelines = w.store.pipelines := by
  obtain ⟨w', hfailed, hsame⟩ := h.undecided.register_of_taken taken
  exact ⟨w', (c.registerSpec_eq w).trans hfailed, hsame⟩

end Unseen

/-- A new hash gets a number that is greater than all the others exactly where the newest version
has the greatest number, one without number counting as zero. -/
theorem registersNewer_iff (h : c.Unseen w) :
    c.RegistersNewer w ↔ ∀ n ∈ w.store.numbers c.pipeline.name,
      n ≤ w.store.newestNumber c.pipeline.name := by
  constructor
  · rintro ⟨record, number, w', hcreated, -, -, -, hnumber, hgreater⟩ n hn
    by_cases taken : ∃ v ∈ w.store.versions c.pipeline.name,
        v.body.version = toString (w.store.newestNumber c.pipeline.name + 1)
    · obtain ⟨w'', hfailed, -⟩ := h.registerSpec_of_taken taken
      cases hcreated.symm.trans hfailed
    · obtain ⟨record', w'', hcreated', -, -, -, hnext⟩ :=
        h.registerSpec_of_free fun v hv hversion => taken ⟨v, hv, hversion⟩
      cases hcreated.symm.trans hcreated'
      cases hnumber.symm.trans hnext
      exact Nat.le_of_lt_succ (hgreater n hn)
  · intro hnewest
    have free : ∀ v ∈ w.store.versions c.pipeline.name,
        v.body.version ≠ toString (w.store.newestNumber c.pipeline.name + 1) := by
      intro v hv hversion
      have hstored := Store.mem_numbers.2 ⟨v, hv, h.number?_of_next hversion⟩
      have := hnewest _ hstored
      omega
    obtain ⟨record, w', hcreated, hmore, hname, hhash, hnumber⟩ := h.registerSpec_of_free free
    refine ⟨record, _, w', hcreated, hmore, hname, hhash, hnumber, ?_⟩
    intro n hn
    exact Nat.lt_succ_of_le (hnewest n hn)

/-- Every version hash has 32 digits. -/
theorem length_versionHash (c : Registrant) : c.versionHash.length = 32 := by
  have hhashed := c.hashed
  simp only [Pipeline.versionHash, Spec.versionHash] at hhashed
  cases htext : c.spec.versionText c.pipeline.name c.pipeline.definition.sourceCode
      c.pipeline.stepSource? with
  | error => simp [htext, Except.map] at hhashed
  | ok text =>
    simp only [htext, Except.map, Except.ok.injEq] at hhashed
    rw [← hhashed, Digest.length_md5Hex]

end Registrant

namespace Sample

/-- A version of the sample pipeline that somebody else has stored. -/
def foreignVersion (id : Nat) (version hash : String) : Record PipelineVersion where
  stamp := { id := .ofNat id, created := { seconds := 0 } }
  body := {
    name := "training"
    version
    versionHash := hash
    spec := { version := Spec.currentVersion, steps := [] }
    user := .ofNat 0
    workspace := .ofNat 1 }

/-- A world with a numbered version and an unnumbered one, in this order. -/
def unnumberedLast : World :=
  { World.initial with store := { World.initial.store with
      pipelines := [foreignVersion 7 "1" "a", foreignVersion 8 PipelineVersion.unversioned "b"] } }

/-- The same versions in the other order. -/
def numberedLast : World :=
  { unnumberedLast with store := { unnumberedLast.store with
      pipelines := unnumberedLast.store.pipelines.reverse } }

/-- The hash of the sample pipeline is longer than those above. -/
theorem exists_unseen : ∃ c : Registrant, c.pipeline = prepared ∧ c.spec = compiled.2
    ∧ c.Unseen unnumberedLast ∧ c.Unseen numberedLast := by
  obtain ⟨hash, hhash⟩ := exists_versionHash_prepared
  let c : Registrant := ⟨prepared, compiled.2, hash, hhash⟩
  have hshort : ∀ w ∈ [unnumberedLast, numberedLast],
      ∀ v ∈ w.store.versions prepared.name, v.body.versionHash.length ≠ 32 := by decide
  have hunknown : ∀ w ∈ [unnumberedLast, numberedLast],
      ∀ v ∈ w.store.versions prepared.name, v.body.versionHash ≠ hash := by
    rintro w hw v hv rfl
    exact hshort w hw v hv c.length_versionHash
  have hversioned : ∀ w ∈ [unnumberedLast, numberedLast],
      ∀ v ∈ w.store.versions prepared.name, v.body.Versioned := by decide
  exact ⟨c, rfl, rfl, ⟨rfl, hunknown _ (by simp), hversioned _ (by simp)⟩,
    ⟨rfl, hunknown _ (by simp), hversioned _ (by simp)⟩⟩

/-- Behind an unnumbered version the sample pipeline gets no number, and else the next one. -/
theorem registersNewer_iff_unnumbered : ∃ c : Registrant, c.pipeline = prepared
    ∧ c.spec = compiled.2 ∧ c.Unseen unnumberedLast ∧ ¬ c.RegistersNewer unnumberedLast
    ∧ c.Unseen numberedLast ∧ c.RegistersNewer numberedLast := by
  obtain ⟨c, hpipeline, hspec, hlast, hfirst⟩ := exists_unseen
  refine ⟨c, hpipeline, hspec, hlast, ?_, hfirst, ?_⟩
  · rw [Registrant.registersNewer_iff hlast, hpipeline]
    decide
  · rw [Registrant.registersNewer_iff hfirst, hpipeline]
    decide

end Sample

/-- Behind an unnumbered version the number one is asked for again. Where it is taken a new hash is
not registered at all. -/
theorem Registrant.not_forall_registersNewer :
    ¬ ∀ (c : Registrant) (w : World), c.Unseen w → c.RegistersNewer w := by
  intro h
  obtain ⟨c, hpipeline, -, hlast, -⟩ := Sample.exists_unseen
  obtain ⟨record, number, w, hcreated, -⟩ := h c _ hlast
  obtain ⟨w', hfailed, -⟩ := hlast.registerSpec_of_taken (by rw [hpipeline]; decide)
  cases hcreated.symm.trans hfailed

end Pipework
