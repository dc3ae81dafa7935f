import Pipework.Proofs.Dispatch.Versions
import Pipework.Proofs.Registration.Alone

/-!
# Registering one after the other

Any coordinators register, build and run any workflows in turn, and nobody else writes versions. A
call that succeeds and registers leaves all versions as they are if its hash was registered under
its name before, and otherwise adds one version, under the next number, and reports it. So the
versions of a pipeline are the hashes that were registered under its name, each of them once and in
the order of their first registration (`Sequential.registered_once`).
-/

namespace Pipework

variable {σ : Type}

/-! ## First occurrences -/

section
variable {α : Type} [DecidableEq α]

theorem eraseDups_snoc (l : List α) (a : α) :
    (l ++ [a]).eraseDups = if a ∈ l then l.eraseDups else l.eraseDups ++ [a] := by
  rw [List.eraseDups_append, List.removeAll]
  split <;> simp_all [List.eraseDups_cons]

theorem nodup_eraseDups (l : List α) : l.eraseDups.Nodup := by
  induction l using List.reverseRecOn with
  | nil => simp
  | append_singleton l a ih =>
    rw [eraseDups_snoc]
    split
    · exact ih
    · rename_i hnew
      refine List.nodup_append.2 ⟨ih, List.nodup_singleton a, ?_⟩
      rintro b hb _ hc rfl
      exact hnew (List.mem_singleton.1 hc ▸ List.mem_eraseDups.1 hb)

end

/-! ## Calls that register -/

/-- That a version was registered: for which name and version hash, and the record that came of
it. -/
structure PastRegistration where
  name : String
  versionHash : String
  record : Record PipelineVersion

/-- Whether a call succeeds and registers: once its workflow is prepared, it yields the record for
its name and version hash. -/
def Call.Registers (call : Call σ) (s : Session σ) (entry : PastRegistration) : Prop :=
  ∃ p s', call.workflow.prepareIfPossible call.workflow.pipeline s = (.ok (), p, s')
    ∧ call.coordinator.Yields p s'.world entry.record call.kind
    ∧ p.name = entry.name ∧ p.versionHash p.ownSpec = .ok entry.versionHash

/-- A successful call to register, build or run comes after another, and in between nobody writes
versions. The past has what they registered, the oldest first. -/
inductive Sequential : List PastRegistration → Session σ → Prop where
  | start {s : Session σ} (pipelines : s.world.store.pipelines = [])
      (announcements : s.world.announcements = []) (alone : s.world.rivals = []) : Sequential [] s
  | call {past : List PastRegistration} {s : Session σ} (h : Sequential past s) (call : Call σ)
      {entry : PastRegistration} (registers : call.Registers s entry) :
      Sequential (past ++ [entry]) (call.perform s)
  /-- Between two calls anything can happen that leaves the versions alone. -/
  | meanwhile {past : List PastRegistration} {s s' : Session σ} (h : Sequential past s)
      (same : s.world.SameVersions s'.world) : Sequential past s'

/-- The hashes that were registered under a name, in their order. -/
def hashesOf (name : String) (past : List PastRegistration) : List String :=
  (past.filter (·.name = name)).map (·.versionHash)

theorem hashesOf_snoc (name : String) (past : List PastRegistration) (entry : PastRegistration) :
    hashesOf name (past ++ [entry])
      = hashesOf name past ++ if entry.name = name then [entry.versionHash] else [] := by
  by_cases h : entry.name = name <;> simp [hashesOf, h]

/-! ## What a call does to the versions -/

namespace Coordinator

variable {c : Coordinator} {p : Pipeline} {w : World} {record : Record PipelineVersion}
  {kind : CallKind} {hash : String}

/-- Where a version has its hash, a call that registers yields this one. -/
theorem Yields.of_versionOf? (h : c.Yields p w record kind)
    (hhash : p.versionHash p.ownSpec = .ok hash) {known : Record PipelineVersion}
    (hknown : w.store.versionOf? p.name hash = some known) :
    record = known ∧ w.SameVersions (c.act p w kind) := by
  obtain ⟨hanswer, hsame⟩ := h.registers
  obtain ⟨hregister, hkeeps⟩ := registerSpec_of_versionOf? hhash hknown
  rw [hregister] at hanswer
  exact ⟨(Except.ok.inj hanswer).symm, hkeeps.trans hsame⟩

/-- Where no version has its hash, a call that registers creates the next one. -/
theorem Yields.of_unknown (h : c.Yields p w record kind)
    (hhash : p.versionHash p.ownSpec = .ok hash) (alone : w.rivals = [])
    (numbered : Numbered (w.store.versions p.name))
    (unknown : ∀ v ∈ w.store.versions p.name, v.body.versionHash ≠ hash) :
    record.body.name = p.name ∧ record.body.versionHash = hash
    ∧ Numbered (w.store.versions p.name ++ [record]) ∧ w.AddsVersion record (c.act p w kind) := by
  obtain ⟨hanswer, hsame⟩ := h.registers
  rw [registerSpec_of_ok hhash] at hanswer hsame
  obtain ⟨hbody, room, hadds⟩ :=
    Registration.register_of_unknown ⟨alone, numbered, unknown, rfl⟩ (Prod.ext hanswer rfl)
  rw [hbody]
  exact ⟨rfl, rfl, numbered.snoc room (by rw [hbody]; rfl), hadds.trans_same hsame⟩

theorem extends_registerSpec (p : Pipeline) (spec : Spec) (w : World) :
    w.Extends (registerSpec p spec w).2 := by
  obtain ⟨requests, -, hworld, -⟩ := exists_requests_registerSpec p spec w
  rw [hworld]
  exact w.extends_performAll requests

theorem extends_register (c : Coordinator) (p : Pipeline) (w : World) :
    w.Extends (c.register p w).2 :=
  Effect.rel_bind .trans (.refl w) fun compiled _ => extends_registerSpec p compiled.2 w

theorem extends_createBuild (c : Coordinator) (d : Deployment) (version : Option Uuid)
    (downloads : Bool) (w : World) : w.Extends (c.createBuild d version downloads w).2 := by
  rcases c.createBuild_eq (d := d) (w := w) version downloads with hnone | hcreated
  · rw [hnone]
    exact .refl w
  · rw [hcreated]
    exact w.extends_perform (.createBuild _)

theorem extends_build (c : Coordinator) (p : Pipeline) (w : World) :
    w.Extends (c.build p w).2 := by
  refine Effect.rel_bind .trans (.refl w) fun compiled _ => ?_
  refine Effect.rel_bind .trans (extends_registerSpec p compiled.2 w) fun v _ => ?_
  refine Effect.rel_bind .trans (c.extends_createBuild _ _ _ _) fun b _ => ?_
  exact Effect.rel_bind .trans (World.extends_emit _ _) fun _ _ => .refl _

end Coordinator

/-- Preparing a workflow has nothing to do with versions. -/
theorem Workflow.sameVersions_prepareIfPossible {flow : Workflow σ} {p p' : Pipeline}
    {s s' : Session σ} {result : Except Error Unit}
    (h : flow.prepareIfPossible p s = (result, p', s')) : s.world.SameVersions s'.world := by
  obtain ⟨n, hids⟩ := sameButIds_prepareIfPossible (w := flow) (p := p) (s := s)
  rw [h] at hids
  have hworld : s'.world = { s.world with ids := s.world.ids.after n } := hids
  rw [hworld]
  exact ⟨rfl, rfl, rfl, rfl⟩

namespace Call

variable {call : Call σ} {s : Session σ} {entry : PastRegistration}

/-- However a call ends, it changes no record. -/
theorem extends_perform (call : Call σ) (s : Session σ) :
    s.world.Extends (call.perform s).world := by
  refine call.rel s .trans (fun w _ => { World.Extends.refl w with })
    call.coordinator.extends_register call.coordinator.extends_build ?_
  intro p d spec w requests result built deploys compile trace
  exact w.extends_performAll requests

/-- A call that registers does what its coordinator does with the prepared pipeline. -/
theorem world_perform {p : Pipeline} {s' : Session σ}
    (hprepare : call.workflow.prepareIfPossible call.workflow.pipeline s = (.ok (), p, s'))
    (hyields : call.coordinator.Yields p s'.world entry.record call.kind) :
    (call.perform s).world = call.coordinator.act p s'.world call.kind := by
  rw [perform]
  cases hkind : call.kind with
  | register =>
    change (call.workflow.register _ _ s).2.2.world = _
    rw [Workflow.register, Workflow.bind_of_ok hprepare]
    rfl
  | build =>
    change (call.workflow.build _ _ s).2.2.world = _
    rw [Workflow.build, Workflow.bind_of_ok hprepare]
    rfl
  | run =>
    change (call.workflow.run _ _ s).2.2.world = _
    rw [hkind] at hyields
    cases hyields with
    | run answer listed =>
      have hopen' : call.coordinator.isSuppressed s'.world = false := by
        by_contra hsuppressed
        rw [Bool.not_eq_false] at hsuppressed
        rw [Coordinator.run_of_suppressed hsuppressed] at answer
        cases answer
      have hopen : call.coordinator.isSuppressed s.world = false := by
        obtain ⟨n, hids⟩ := Workflow.sameButIds_prepareIfPossible (w := call.workflow)
          (p := call.workflow.pipeline) (s := s)
        rw [hprepare] at hids
        have hworld : s'.world = { s.world with ids := s.world.ids.after n } := hids
        rw [hworld] at hopen'
        exact hopen'
      rw [Workflow.run, hopen, if_neg Bool.false_ne_true, Workflow.bind_of_ok hprepare,
        Coordinator.act, Coordinator.run_of_open hopen', Workflow.effect, Effect.map_eq]
      rfl

end Call

/-! ## What holds in between -/

/-- What holds of the versions of a world, and of the reports, after such a past. -/
structure World.Sequenced (past : List PastRegistration) (w : World) : Prop where
  alone : w.rivals = []
  numbered : ∀ name, Numbered (w.store.versions name)
  hashes : ∀ name,
    (w.store.versions name).map (·.body.versionHash) = (hashesOf name past).eraseDups
  answered : ∀ entry ∈ past, entry.record ∈ w.store.versions entry.name
    ∧ entry.record.body.versionHash = entry.versionHash
  announced : w.announcements = w.store.pipelines.map Registration.event

namespace World.Sequenced

variable {past : List PastRegistration} {w w' : World} {entry : PastRegistration} {name : String}

theorem start (pipelines : w.store.pipelines = []) (announcements : w.announcements = [])
    (alone : w.rivals = []) : w.Sequenced [] where
  alone := alone
  numbered name := by
    rw [Store.versions, pipelines]
    exact .nil
  hashes name := by
    rw [Store.versions, pipelines]
    rfl
  answered := List.forall_mem_nil _
  announced := by rw [announcements, pipelines, List.map_nil]

theorem same (h : w.Sequenced past) (hsame : w.SameVersions w') : w'.Sequenced past where
  alone := hsame.rivals.trans h.alone
  numbered name := hsame.versions_eq name ▸ h.numbered name
  hashes name := hsame.versions_eq name ▸ h.hashes name
  answered entry hentry := hsame.versions_eq entry.name ▸ h.answered entry hentry
  announced := by rw [hsame.announcements, h.announced, hsame.pipelines]

/-- A hash that was registered is found again with the record that came of it. -/
theorem versionOf?_of_mem (h : w.Sequenced past) (hentry : entry ∈ past) :
    w.store.versionOf? entry.name entry.versionHash = some entry.record := by
  obtain ⟨hstored, hhash⟩ := h.answered entry hentry
  have hmem : entry.record ∈ (w.store.versions entry.name).filter
      fun r => r.body.versionHash = entry.versionHash := by
    simpa [hhash] using hstored
  cases hlast : w.store.versionOf? entry.name entry.versionHash with
  | none =>
    rw [Store.versionOf?, List.getLast?_eq_none_iff] at hlast
    simp [hlast] at hmem
  | some newest =>
    obtain ⟨hnewest, hsame⟩ := List.mem_filter.1 (List.mem_of_getLast? hlast)
    have hnodup := nodup_eraseDups (hashesOf entry.name past)
    rw [← h.hashes] at hnodup
    have heq := List.inj_on_of_nodup_map hnodup hnewest hstored
      ((of_decide_eq_true hsame).trans hhash.symm)
    rw [heq]

theorem mem_hashesOf {hash : String} :
    hash ∈ hashesOf name past ↔ ∃ entry ∈ past, entry.name = name ∧ entry.versionHash = hash := by
  simp [hashesOf, and_assoc]

/-- A hash that was not registered has no version. -/
theorem unknown (h : w.Sequenced past) {hash : String} (hnew : hash ∉ hashesOf name past) :
    ∀ v ∈ w.store.versions name, v.body.versionHash ≠ hash := by
  rintro v hv rfl
  apply hnew
  rw [← List.mem_eraseDups, ← h.hashes]
  exact List.mem_map_of_mem hv

/-- A hash that is registered again changes nothing. -/
theorem again (h : w.Sequenced past) {earlier : PastRegistration} (hearlier : earlier ∈ past)
    (hname : earlier.name = entry.name) (hhash : earlier.versionHash = entry.versionHash)
    (hrecord : entry.record = earlier.record) : w.Sequenced (past ++ [entry]) where
  alone := h.alone
  numbered := h.numbered
  hashes name := by
    rw [h.hashes, hashesOf_snoc]
    split
    · rename_i hentry
      have hknown : entry.versionHash ∈ hashesOf name past :=
        mem_hashesOf.2 ⟨earlier, hearlier, hname.trans hentry, hhash⟩
      rw [eraseDups_snoc, if_pos hknown]
    · rw [List.append_nil]
  answered := by
    intro e he
    rcases List.mem_append.1 he with he | he
    · exact h.answered e he
    · cases List.mem_singleton.1 he
      rw [hrecord, ← hname, ← hhash]
      exact h.answered earlier hearlier
  announced := h.announced

/-- A hash that is registered for the first time adds its version. -/
theorem first (h : w.Sequenced past) (hnew : entry.versionHash ∉ hashesOf entry.name past)
    (hname : entry.record.body.name = entry.name)
    (hhash : entry.record.body.versionHash = entry.versionHash)
    (hnumbered : Numbered (w.store.versions entry.name ++ [entry.record]))
    (hadds : w.AddsVersion entry.record w') : w'.Sequenced (past ++ [entry]) := by
  have hversions (name : String) : w'.store.versions name
      = w.store.versions name ++ if entry.name = name then [entry.record] else [] := by
    rw [Store.versions_of_append hadds.pipelines]
    by_cases h : entry.name = name <;> simp [hname, h]
  refine ⟨hadds.rivals, fun name => ?_, fun name => ?_, fun e he => ?_, ?_⟩
  · rw [hversions]
    split
    · rename_i heq
      exact heq ▸ hnumbered
    · simpa using h.numbered name
  · rw [hversions, hashesOf_snoc, List.map_append, h.hashes]
    split
    · rename_i heq
      rw [eraseDups_snoc, if_neg (heq ▸ hnew), List.map_singleton, hhash]
    · simp
  · rw [hversions]
    rcases List.mem_append.1 he with he | he
    · obtain ⟨hstored, hsame⟩ := h.answered e he
      exact ⟨List.mem_append_left _ hstored, hsame⟩
    · cases List.mem_singleton.1 he
      exact ⟨by simp, hhash⟩
  · rw [hadds.announcements, hadds.pipelines, h.announced, List.map_append, List.map_singleton]

end World.Sequenced

namespace Call

variable {call : Call σ} {s : Session σ} {entry : PastRegistration} {past : List PastRegistration}

/-- Whoever registers what was registered before gets the record of before, and no version is asked
for, added or reported. -/
theorem Registers.again (h : s.world.Sequenced past) (hcall : call.Registers s entry)
    {earlier : PastRegistration} (hearlier : earlier ∈ past) (hname : earlier.name = entry.name)
    (hhash : earlier.versionHash = entry.versionHash) :
    entry.record = earlier.record ∧ s.world.SameVersions (call.perform s).world := by
  obtain ⟨p, s', hprepare, hyields, hpipeline, hown⟩ := hcall
  have hprepared := Workflow.sameVersions_prepareIfPossible hprepare
  have hknown := (h.same hprepared).versionOf?_of_mem hearlier
  rw [hname, hhash, ← hpipeline] at hknown
  obtain ⟨hrecord, hsame⟩ := hyields.of_versionOf? hown hknown
  rw [world_perform hprepare hyields]
  exact ⟨hrecord, hprepared.trans hsame⟩

/-- A call that registers keeps what holds of the versions. -/
theorem Registers.sequenced (h : s.world.Sequenced past) (hcall : call.Registers s entry) :
    (call.perform s).world.Sequenced (past ++ [entry]) := by
  by_cases hseen : entry.versionHash ∈ hashesOf entry.name past
  · obtain ⟨earlier, hearlier, hname, hhash⟩ := World.Sequenced.mem_hashesOf.1 hseen
    obtain ⟨hrecord, hsame⟩ := hcall.again h hearlier hname hhash
    exact (h.again hearlier hname hhash hrecord).same hsame
  · obtain ⟨p, s', hprepare, hyields, hpipeline, hown⟩ := hcall
    have hprepared := h.same (Workflow.sameVersions_prepareIfPossible hprepare)
    obtain ⟨hname, hhash, hnumbered, hadds⟩ := hyields.of_unknown hown hprepared.alone
      (hprepared.numbered p.name) (hprepared.unknown (hpipeline ▸ hseen))
    rw [hpipeline] at hname hnumbered
    rw [world_perform hprepare hyields]
    exact hprepared.first hseen hname hhash hnumbered hadds

end Call

namespace Sequential

variable {past : List PastRegistration} {s : Session σ}

theorem sequenced (h : Sequential past s) : s.world.Sequenced past := by
  induction h with
  | start pipelines announcements alone => exact .start pipelines announcements alone
  | call _ call registers ih => exact registers.sequenced ih
  | meanwhile _ same ih => exact ih.same same

/-- After any successful calls to register, build and run, one after the other, the versions of each
pipeline are the hashes that were registered under its name, each once, numbered in the order of
their first registration, and each version was reported once. All calls that registered a hash got
its record. The next one that registers it gets this record too: it asks for no version, reports
none and changes no record. -/
theorem registered_once (h : Sequential past s) :
    (∀ name, Numbered (s.world.store.versions name)
      ∧ (s.world.store.versions name).map (·.body.versionHash) = (hashesOf name past).eraseDups
      ∧ ((s.world.store.versions name).length < Nat.pow 2 64 →
        (s.world.store.versions name).map (·.body.version)
          = (List.range' 1 (s.world.store.versions name).length).map toString))
    ∧ (∀ entry ∈ past, entry.record ∈ s.world.store.versions entry.name
        ∧ entry.record.body.versionHash = entry.versionHash)
    ∧ s.world.announcements = s.world.store.pipelines.map Registration.event
    ∧ ∀ (call : Call σ) (entry : PastRegistration), call.Registers s entry →
        ∀ earlier ∈ past, earlier.name = entry.name → earlier.versionHash = entry.versionHash →
        entry.record = earlier.record ∧ s.world.SameVersions (call.perform s).world
        ∧ s.world.Extends (call.perform s).world := by
  have hworld := h.sequenced
  refine ⟨fun name => ⟨hworld.numbered name, hworld.hashes name, (hworld.numbered name).versions_eq⟩,
    hworld.answered, hworld.announced, ?_⟩
  intro call entry hcall earlier hearlier hname hhash
  obtain ⟨hrecord, hsame⟩ := hcall.again hworld hearlier hname hhash
  exact ⟨hrecord, hsame, call.extends_perform s⟩

end Sequential

namespace Sample

open Coordinator

/-- A registration of the sample pipeline, which is prepared already. -/
def trainingRegistration : Call Unit where
  kind := .register
  coordinator
  workflow := ⟨prepared, entry⟩
  built := built_prepared

/-- A run of the sample pipeline registers it. -/
theorem exists_registers_trainingRun :
    ∃ entry, entry.name = "training" ∧ prepared.versionHash prepared.ownSpec = .ok entry.versionHash
      ∧ trainingRun.Registers openSession entry := by
  obtain ⟨v, w₁, hregister, -⟩ := exists_registerSpec_prepared
  obtain ⟨records, w₂, hdispatch, hlisted, -⟩ := exists_dispatch_of_registerSpec hregister
  have hyields : coordinator.Yields prepared preparedSession.world v .run := by
    have hopen : coordinator.isSuppressed preparedSession.world = false := rfl
    have heq := run_of_open (p := prepared) hopen
    rw [hdispatch] at heq
    exact .run (congrArg Prod.fst heq) hlisted
  obtain ⟨hash, hhash, -⟩ := versionOf?_of_registerSpec hyields.registers.1
  exact ⟨⟨"training", hash, v⟩, rfl, hhash, prepared, preparedSession, prepare_training, hyields,
    rfl, hhash⟩

/-- The sample pipeline is run on an empty store, which makes its first version. It is registered
again after that: the answer is the record of the run, and this version is the only one. -/
theorem registered_once_training :
    ∃ first second, Sequential [first] (trainingRun.perform openSession)
      ∧ trainingRegistration.Registers (trainingRun.perform openSession) second
      ∧ second.record = first.record
      ∧ ((trainingRun.perform openSession).world.store.versions "training").map (·.body.version)
        = ["1"]
      ∧ (trainingRun.perform openSession).world.SameVersions
          (trainingRegistration.perform (trainingRun.perform openSession)).world := by
  obtain ⟨first, hname, hhash, hfirst⟩ := exists_registers_trainingRun
  have hstart : Sequential [] openSession := .start rfl rfl rfl
  have hpast : Sequential [first] (trainingRun.perform openSession) := hstart.call _ hfirst
  have hknown := hpast.sequenced.versionOf?_of_mem List.mem_cons_self
  have hregister := (registerSpec_of_versionOf? (p := prepared) hhash (hname ▸ hknown)).1
  have hcompile : prepared.compileWith coordinator.materializers coordinator.stack ∅
      = .ok compiled := rfl
  rw [← register_of_ok hcompile] at hregister
  have hsecond : trainingRegistration.Registers (trainingRun.perform openSession) first :=
    ⟨prepared, _, rfl, .register (congrArg Prod.fst hregister), hname.symm, hhash⟩
  obtain ⟨hversions, -, -, hagain⟩ := hpast.registered_once
  obtain ⟨-, hhashes, hnumbers⟩ := hversions "training"
  have hlength : ((trainingRun.perform openSession).world.store.versions "training").length = 1 := by
    rw [← List.length_map (·.body.versionHash), hhashes]
    simp [hashesOf, hname, List.eraseDups_cons]
  obtain ⟨hrecord, hsame, -⟩ := hagain _ first hsecond first List.mem_cons_self rfl rfl
  refine ⟨first, first, hpast, hsecond, hrecord, ?_, hsame⟩
  rw [hnumbers (by rw [hlength]; decide), hlength]
  rfl

end Sample

end Pipework
