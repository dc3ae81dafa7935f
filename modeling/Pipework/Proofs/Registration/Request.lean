import Pipework.Dispatch.Registration

/-!
# The requests of a registration

`Registration.Request` lists what one request of a registration finds out and which records it
adds, when no rival comes before it. `Registration.step_request` says that a step does one of these
things, so that no later proof has to look into `Registration.step`.
-/

namespace Pipework

theorem Page.first?_ofList {α : Type} (l : List α) : (Page.ofList l (some 1)).first? = l.head? := by
  cases l <;> rfl

namespace Store

/-- The versions of a pipeline in the order of their creation. -/
def versions (s : Store) (name : String) : List (Record PipelineVersion) :=
  s.pipelines.filter fun r => r.body.name = name

theorem mem_versions {s : Store} {name : String} {r : Record PipelineVersion} :
    r ∈ s.versions name ↔ r ∈ s.pipelines ∧ r.body.name = name := by
  simp [versions]

/-- Records of other pipelines do not matter. -/
theorem versions_of_append {s t : Store} {added : List (Record PipelineVersion)}
    (h : t.pipelines = s.pipelines ++ added) (name : String) :
    t.versions name = s.versions name ++ added.filter fun r => r.body.name = name := by
  rw [versions, h, List.filter_append, versions]

theorem hasVersion_iff {s : Store} {name version : String} :
    s.hasVersion name version = true ↔ ∃ r ∈ s.versions name, r.body.version = version := by
  simp [hasVersion, mem_versions, and_assoc]

/-- The listing of all versions of a pipeline starts with the newest. -/
theorem first?_listPipelines (s : Store) (name : String) :
    (s.listPipelines { name := name, size := some 1 }).1.first? = (s.versions name).getLast? := by
  have accepts : (fun r : Record PipelineVersion => PipelineFilter.accepts
      { name := name, size := some 1 } r.body) = fun r => decide (r.body.name = name) := by
    funext r
    simp [PipelineFilter.accepts, Bool.beq_eq_decide_eq]
  rw [listPipelines, accepts, Page.first?_ofList, List.filter_reverse, List.head?_reverse, versions]

/-- The listing of the versions with a hash gives one of these, if there is any. -/
theorem first?_listPipelines_hash (s : Store) (name hash : String) :
    (s.listPipelines { name := name, versionHash := hash, size := some 1 }).1.first?
      = ((s.versions name).filter fun r => r.body.versionHash = hash).getLast? := by
  have accepts : (fun r : Record PipelineVersion => PipelineFilter.accepts
      { name := name, versionHash := hash, size := some 1 } r.body)
        = fun r => decide (r.body.versionHash = hash) && decide (r.body.name = name) := by
    funext r
    simp [PipelineFilter.accepts, Bool.beq_eq_decide_eq, Bool.and_comm]
  rw [listPipelines, accepts, Page.first?_ofList, List.filter_reverse, List.head?_reverse, versions,
    List.filter_filter]

/-- A number that is taken is refused, and no record changes. -/
theorem createPipeline_of_taken {s : Store} {v : PipelineVersion} (stamp : Stamp)
    (h : s.hasVersion v.name v.version = true) :
    (s.createPipeline stamp v).1 = .error (.conflict "Pipeline" (v.name ++ ":" ++ v.version))
      ∧ (s.createPipeline stamp v).2.pipelines = s.pipelines := by
  rw [hasVersion] at h
  simp [createPipeline, hasVersion, h]

theorem createPipeline_of_free {s : Store} {v : PipelineVersion} (stamp : Stamp)
    (h : ¬ s.hasVersion v.name v.version = true) :
    (s.createPipeline stamp v).1 = .ok ⟨stamp, v⟩
      ∧ (s.createPipeline stamp v).2.pipelines = s.pipelines ++ [⟨stamp, v⟩] := by
  rw [hasVersion] at h
  simp [createPipeline, hasVersion, h]

end Store

theorem World.createPipeline_of_no_rivals {w : World} (h : w.rivals = []) (v : PipelineVersion) :
    w.createPipeline v = ((w.store.createPipeline w.nextStamp.1 v).1,
      { w.nextStamp.2 with store := (w.store.createPipeline w.nextStamp.1 v).2 }) := by
  rw [createPipeline, h]
  rfl

namespace VersionDraft

variable (d : VersionDraft) (number : Nat)

@[simp] theorem numbered_name : (d.numbered number).name = d.name := rfl

@[simp] theorem numbered_versionHash : (d.numbered number).versionHash = d.versionHash := rfl

end VersionDraft

namespace Registration

/-- How a registration ended, if it did. -/
def result? (r : Registration) : Option (Except StoreError (Record PipelineVersion)) :=
  match r.stage with
  | .found record | .created record => some (.ok record)
  | .failed cause => some (.error cause)
  | .findHash | .findNumber | .create _ => none

/-- What a request can do to a registration, and the records that it adds to the store. -/
inductive Request (s : Store) (r : Registration) :
    Registration → List (Record PipelineVersion) → Prop where
  | found (record : Record PipelineVersion) (stage : r.stage = .findHash)
      (stored : record ∈ s.versions r.draft.name)
      (hash : record.body.versionHash = r.draft.versionHash) :
      Request s r { r with stage := .found record } []
  | missing (stage : r.stage = .findHash)
      (unknown : ∀ record ∈ s.versions r.draft.name,
        record.body.versionHash ≠ r.draft.versionHash) :
      Request s r { r with stage := .findNumber } []
  | numbered (number : Nat) (stage : r.stage = .findNumber)
      (next : nextNumber r.draft.name (s.versions r.draft.name).getLast? = .ok number) :
      Request s r { r with stage := .create number } []
  | unreadable (cause : StoreError) (stage : r.stage = .findNumber)
      (next : nextNumber r.draft.name (s.versions r.draft.name).getLast? = .error cause) :
      Request s r { r with stage := .failed cause } []
  | created (number : Nat) (stamp : Stamp) (stage : r.stage = .create number)
      (free : ∀ record ∈ s.versions r.draft.name, record.body.version ≠ toString number) :
      Request s r { r with stage := .created ⟨stamp, r.draft.numbered number⟩ }
        [⟨stamp, r.draft.numbered number⟩]
  | taken (number : Nat) (stage : r.stage = .create number)
      (taken : ∃ record ∈ s.versions r.draft.name, record.body.version = toString number) :
      Request s r r.lost []
  | ended (stage : r.result?.isSome) : Request s r r []

variable {r : Registration} {w : World}

theorem request_findHash (h : r.stage = .findHash) :
    Request w.store r (r.step w).1 [] ∧ (r.step w).2.store.pipelines = w.store.pipelines
      ∧ (r.step w).2.rivals = w.rivals := by
  have first := w.store.first?_listPipelines_hash r.draft.name r.draft.versionHash
  cases hl : ((w.store.versions r.draft.name).filter fun v =>
      v.body.versionHash = r.draft.versionHash).getLast? with
  | some record =>
    rw [hl] at first
    have hm := List.mem_filter.1 (List.mem_of_getLast? hl)
    simp only [step, h, World.listPipelines, first]
    exact ⟨.found record h hm.1 (of_decide_eq_true hm.2), rfl, trivial⟩
  | none =>
    rw [hl] at first
    have hm := List.filter_eq_nil_iff.1 (List.getLast?_eq_none_iff.1 hl)
    simp only [step, h, World.listPipelines, first]
    exact ⟨.missing h fun v hv => by simpa using hm v hv, rfl, trivial⟩

theorem request_findNumber (h : r.stage = .findNumber) :
    Request w.store r (r.step w).1 [] ∧ (r.step w).2.store.pipelines = w.store.pipelines
      ∧ (r.step w).2.rivals = w.rivals := by
  have first := w.store.first?_listPipelines r.draft.name
  cases hn : nextNumber r.draft.name (w.store.versions r.draft.name).getLast? with
  | ok number =>
    simp only [step, h, World.listPipelines, first, hn]
    exact ⟨.numbered number h hn, rfl, trivial⟩
  | error cause =>
    simp only [step, h, World.listPipelines, first, hn]
    exact ⟨.unreadable cause h hn, rfl, trivial⟩

/-- Without rivals only the store itself can refuse a number. -/
theorem request_create {number : Nat} (h : r.stage = .create number) (hw : w.rivals = []) :
    ∃ added, Request w.store r (r.step w).1 added
      ∧ (r.step w).2.store.pipelines = w.store.pipelines ++ added
      ∧ (r.step w).2.rivals = [] := by
  have create := World.createPipeline_of_no_rivals hw (r.draft.numbered number)
  by_cases taken : w.store.hasVersion r.draft.name (toString number) = true
  · obtain ⟨answer, same⟩ :=
      Store.createPipeline_of_taken (v := r.draft.numbered number) w.nextStamp.1 taken
    refine ⟨[], ?_⟩
    simp only [step, h, create, answer]
    exact ⟨.taken number h (Store.hasVersion_iff.1 taken), by simpa using same, hw⟩
  · obtain ⟨answer, more⟩ :=
      Store.createPipeline_of_free (v := r.draft.numbered number) w.nextStamp.1 taken
    have free : ∀ record ∈ w.store.versions r.draft.name,
        record.body.version ≠ toString number :=
      fun record hr hv => taken (Store.hasVersion_iff.2 ⟨record, hr, hv⟩)
    refine ⟨[⟨w.nextStamp.1, r.draft.numbered number⟩], ?_⟩
    simp only [step, h, create, answer]
    exact ⟨.created number w.nextStamp.1 h free, more, hw⟩

/-- A step makes one request, and nobody else writes in between. -/
theorem step_request (r : Registration) (hw : w.rivals = []) :
    ∃ added, Request w.store r (r.step w).1 added
      ∧ (r.step w).2.store.pipelines = w.store.pipelines ++ added
      ∧ (r.step w).2.rivals = [] := by
  cases h : r.stage with
  | findHash =>
    obtain ⟨request, same, rivals⟩ := request_findHash (w := w) h
    exact ⟨[], request, by simp [same], rivals.trans hw⟩
  | findNumber =>
    obtain ⟨request, same, rivals⟩ := request_findNumber (w := w) h
    exact ⟨[], request, by simp [same], rivals.trans hw⟩
  | create number => exact request_create h hw
  | found | created | failed =>
    simp only [step, h]
    exact ⟨[], .ended (by simp [result?, h]), by simp, hw⟩

end Registration

end Pipework
