import Pipework.Proofs.Dispatch.History
import Pipework.Proofs.Registration.Reuse

/-!
# Versions do not depend on configuration

The spec of a pipeline is made of its source, its arguments and its invocations, so it is the same
under every configuration, on every stack and with every run configuration, and so is the version
hash. Registering, building and running all register this spec. As long as nobody else writes
versions of the pipeline, whichever of them comes first makes the record that all others find.
-/

namespace Pipework

/-! ## One spec -/

namespace Pipeline

/-- Whether two pipelines are the same prepared pipeline but for configuration and options. -/
structure SameIdentity (q p : Pipeline) : Prop where
  name : q.definition.name = p.definition.name
  source : q.definition.source = p.definition.source
  sourceCode : q.definition.sourceCode = p.definition.sourceCode
  graph : q.graph = p.graph
  arguments : q.arguments = p.arguments

/-- The spec of a prepared pipeline. -/
def ownSpec (p : Pipeline) : Spec where
  version := Spec.currentVersion
  source := p.definition.source
  parameters := p.arguments
  steps := p.invocations.map Invocation.spec

variable {p q : Pipeline} {materializers : Materializers} {stack : Stack} {run : RunConfiguration}
  {d : Deployment} {spec : Spec}

/-- Whatever a pipeline is compiled for, it compiles to its own spec. -/
theorem spec_of_compileWith (h : p.compileWith materializers stack run = .ok (d, spec)) :
    spec = p.ownSpec := by
  obtain ⟨g, steps, hcompiles, houtcome⟩ := compileWith_eq_ok_iff.1 h
  have hinvocations : p.invocations = g.invocations.toList := by
    rw [invocations, hcompiles.graph]
  cases houtcome
  simp only [ownSpec, hinvocations, hcompiles.spec_eq]

theorem spec_of_compile (h : p.compile materializers stack = .ok (d, spec)) : spec = p.ownSpec := by
  obtain ⟨run, -, hcompile⟩ := bind_eq_ok_iff.1 h
  exact spec_of_compileWith hcompile

namespace SameIdentity

theorem refl (p : Pipeline) : p.SameIdentity p := ⟨rfl, rfl, rfl, rfl, rfl⟩

theorem ownSpec_eq (h : q.SameIdentity p) : q.ownSpec = p.ownSpec := by
  simp only [ownSpec, invocations, h.source, h.arguments, h.graph]

theorem versionHash_eq (h : q.SameIdentity p) : q.versionHash spec = p.versionHash spec := by
  have hsources : q.stepSource? = p.stepSource? := by
    funext id
    simp only [stepSource?, h.graph]
  simp only [versionHash, Pipeline.name, h.name, h.sourceCode, hsources]

end SameIdentity

end Pipeline

/-! ## What is registered -/

/-- Whether a request has nothing to do with versions: it does not belong to a registration, and does
not report one. -/
def RunRequest.Versionless (r : RunRequest) : Prop :=
  r.phase ≠ .registration ∧ ∀ event, r = .report event → event.type ≠ Event.registered

namespace World

theorem sameVersions_perform (w : World) {r : RunRequest} (h : r.Versionless) :
    w.SameVersions (w.perform r) := by
  cases r with
  | lookUp | createVersion => exact absurd rfl h.1
  | report event => exact w.sameVersions_emit (h.2 event rfl)
  | _ => exact ⟨rfl, rfl, rfl, rfl⟩

theorem sameVersions_performAll (w : World) {requests : List RunRequest}
    (h : ∀ r ∈ requests, r.Versionless) : w.SameVersions (w.performAll requests) := by
  induction requests generalizing w with
  | nil => exact .refl w
  | cons r requests ih =>
    obtain ⟨hr, hrequests⟩ := List.forall_mem_cons.1 h
    exact (w.sameVersions_perform hr).trans (ih _ hrequests)

end World

/-- The version that a run at a stage has registered. -/
def RunStage.version? : RunStage → Option (Record PipelineVersion)
  | .register => none
  | .schedule pipeline | .build pipeline _ | .record pipeline _ _ => pipeline
  | .prepare records | .deploy records | .report records | .done records => records.pipeline

namespace Coordinator

variable {c : Coordinator} {p q : Pipeline} {d : Deployment} {spec : Spec} {w w' : World}
  {stage stage' : RunStage} {requests : List RunRequest} {record : Record PipelineVersion}

theorem Advance.version?_eq (h : c.Advance p d spec w stage requests (.ok stage'))
    (hstage : stage.phase ≠ .registration) :
    stage'.version? = stage.version? ∧ stage'.phase ≠ .registration := by
  cases h with
  | unlisted | registered => exact absurd rfl hstage
  | finished => exact ⟨rfl, hstage⟩
  | _ => exact ⟨rfl, nofun⟩

/-- After registration no request has to do with versions. -/
theorem Advance.versionless {result : Except Error RunStage}
    (h : c.Advance p d spec w stage requests result) (hstage : stage.phase ≠ .registration) :
    ∀ r ∈ requests, r.Versionless := by
  intro r hr
  refine ⟨by rwa [h.phase_eq r hr], ?_⟩
  rintro event rfl
  cases h with
  | unlisted | registered | unregistered => exact absurd rfl hstage
  | reported =>
    cases List.mem_singleton.1 hr
    exact (by decide : Event.ran ≠ Event.registered)
  | _ => simp at hr

/-- Past its first stage a run has nothing to do with versions, and it answers with the version it
has. -/
theorem Trace.version?_eq {result : Except Error RunRecords}
    (h : c.Trace p d spec stage w requests result) (hstage : stage.phase ≠ .registration) :
    w.SameVersions (w.performAll requests)
    ∧ ∀ records, result = .ok records → records.pipeline = stage.version? := by
  induction h with
  | done records w =>
    refine ⟨.refl w, ?_⟩
    rintro _ ⟨⟩
    rfl
  | failed advance =>
    exact ⟨World.sameVersions_performAll _ (advance.versionless hstage), by rintro _ ⟨⟩⟩
  | @next stage stage' w own later result advance step rest ih =>
    obtain ⟨hversion, hnext⟩ := advance.version?_eq hstage
    obtain ⟨hlater, hresult⟩ := ih hnext
    have hown := w.sameVersions_performAll (advance.versionless hstage)
    refine ⟨?_, fun records hrecords => (hresult records hrecords).trans hversion⟩
    rw [World.performAll_append]
    exact hown.trans hlater

/-- Of all that a dispatch does only its registration has to do with versions, and it answers with
the version that it has registered. -/
theorem dispatch_registers (hcompile : p.compile c.materializers c.stack = .ok (d, spec)) :
    (c.registerRun p spec w).2.SameVersions (c.dispatch p w).2
    ∧ ∀ records, (c.dispatch p w).1 = .ok records →
        (c.registerRun p spec w).1 = .ok records.pipeline := by
  obtain ⟨requests, htrace, hworld⟩ := exists_trace_dispatch hcompile w
  rw [hworld]
  generalize (c.dispatch p w).1 = result at htrace
  have hadvance : c.advance p d spec .register w
      = ((c.registerRun p spec w).1.map .schedule, (c.registerRun p spec w).2) :=
    Effect.map_eq _ _ w
  rcases hregister : c.registerRun p spec w with ⟨e | registered, w₁⟩
  · rw [hregister] at hadvance
    cases htrace with
    | failed _ step =>
      cases hadvance.symm.trans step
      exact ⟨.refl _, by rintro _ ⟨⟩⟩
    | next _ step => cases hadvance.symm.trans step
  · rw [hregister] at hadvance
    cases htrace with
    | failed _ step => cases hadvance.symm.trans step
    | next _ step rest =>
      cases hadvance.symm.trans step
      obtain ⟨hlater, hresult⟩ := rest.version?_eq nofun
      refine ⟨?_, fun records hrecords => ?_⟩
      · rw [World.performAll_append]
        exact hlater
      · rw [hresult records hrecords]
        rfl

/-- Of all that a build does only its registration has to do with versions. -/
theorem build_registers (hcompile : p.compile c.materializers c.stack = .ok (d, spec)) :
    (registerSpec p spec w).2.SameVersions (c.build p w).2 := by
  have hlift : c.compile p w = (.ok (d, spec), w) := congrArg (·, w) hcompile
  rw [build, Effect.bind_of_ok hlift]
  rcases hregister : registerSpec p spec w with ⟨e | record, w₁⟩
  · simp only [Effect.bind_of_error hregister]
    exact .refl w₁
  · simp only [Effect.bind_of_ok hregister]
    have hcreate (build : Build) : w₁.SameVersions (w₁.perform (.createBuild build)) :=
      ⟨rfl, rfl, rfl, rfl⟩
    have hkind : Event.built ≠ Event.registered := by decide
    rcases c.createBuild_eq (d := d) (w := w₁) (some record.id) (c.downloadsCode d) with
      hbuild | hbuild
    · rw [Effect.bind_of_ok hbuild]
      exact w₁.sameVersions_emit hkind
    · rw [Effect.bind_of_ok hbuild]
      exact (hcreate _).trans (World.sameVersions_emit _ hkind)

theorem versionOf?_of_registerSpec (h : (registerSpec p spec w).1 = .ok record) :
    ∃ hash, p.versionHash spec = .ok hash
      ∧ (registerSpec p spec w).2.store.versionOf? p.name hash = some record := by
  cases hhash : p.versionHash spec with
  | error e =>
    rw [registerSpec_of_error hhash] at h
    cases h
  | ok hash =>
    rw [registerSpec_of_ok hhash] at h ⊢
    exact ⟨hash, rfl, Registration.versionOf?_of_register (Prod.ext h rfl)⟩

/-- Where there is a version with its hash, registering a spec gives this one. -/
theorem registerSpec_of_versionOf? {hash : String} (hhash : p.versionHash spec = .ok hash)
    (h : w.store.versionOf? p.name hash = some record) :
    registerSpec p spec w = (.ok record, (registerSpec p spec w).2)
    ∧ w.SameVersions (registerSpec p spec w).2 := by
  rw [registerSpec_of_ok hhash]
  have hregistered : ∃ w', Registration.register {
      name := p.name, versionHash := hash, spec, docstring := p.definition.docstring
      user := w.store.user.id, workspace := w.store.workspace.id } w = (.ok record, w')
      ∧ w.SameVersions w' := Registration.register_of_versionOf? h
  obtain ⟨w', hregister, hsame⟩ := hregistered
  rw [hregister]
  exact ⟨rfl, hsame⟩

/-- The world after a call on a prepared pipeline, whatever comes of it. -/
def act (c : Coordinator) (p : Pipeline) (w : World) : CallKind → World
  | .register => (c.register p w).2
  | .build => (c.build p w).2
  | .run => (c.run p w).2

/-- Whether a call on a prepared pipeline succeeds with this record of a version: it is the answer,
or the build is made for it, or the run is recorded with it. -/
inductive Yields (c : Coordinator) (p : Pipeline) (w : World) (record : Record PipelineVersion) :
    CallKind → Prop where
  | register (answer : (c.register p w).1 = .ok record) : Yields c p w record .register
  | build {d : Deployment} {spec : Spec} {build : Option (Record Build)}
      (compile : p.compile c.materializers c.stack = .ok (d, spec))
      (registered : (registerSpec p spec w).1 = .ok record)
      (answer : (c.build p w).1 = .ok build) : Yields c p w record .build
  | run {records : RunRecords} (answer : (c.run p w).1 = .ok (.dispatched records))
      (listed : records.pipeline = some record) : Yields c p w record .run

theorem register_of_error {e : Error}
    (hcompile : p.compileWith c.materializers c.stack ∅ = .error e) :
    c.register p w = (.error e, w) :=
  Effect.bind_of_error (congrArg (·, w) hcompile)

theorem register_of_ok (hcompile : p.compileWith c.materializers c.stack ∅ = .ok (d, spec)) :
    c.register p w = registerSpec p p.ownSpec w := by
  rw [← Pipeline.spec_of_compileWith hcompile]
  exact Effect.bind_of_ok (congrArg (·, w) hcompile)

theorem build_of_error {e : Error} (hcompile : p.compile c.materializers c.stack = .error e) :
    c.build p w = (.error e, w) :=
  Effect.bind_of_error (congrArg (·, w) hcompile)

theorem run_of_suppressed (h : c.isSuppressed w = true) : c.run p w = (.ok .suppressed, w) := by
  simp only [run, h, if_true]

theorem run_of_open (h : c.isSuppressed w = false) :
    c.run p w = ((c.dispatch p w).1.map .dispatched, (c.dispatch p w).2) := by
  simp only [run, h, Bool.false_eq_true, if_false, Effect.map_eq]

theorem registerRun_of_listed (h : c.registers p = true) : c.registerRun p spec w
    = ((registerSpec p spec w).1.map some, (registerSpec p spec w).2) := by
  rw [registerRun, if_pos h, Effect.map_eq]

theorem registerRun_of_unlisted (h : c.registers p = false) :
    c.registerRun p spec w = (.ok none, w) := by
  rw [registerRun, h]
  rfl

/-- A call has nothing to do with versions, or no more than the registration of the own spec. -/
theorem sameVersions_act (c : Coordinator) (p : Pipeline) (w : World) (kind : CallKind) :
    w.SameVersions (c.act p w kind)
    ∨ (registerSpec p p.ownSpec w).2.SameVersions (c.act p w kind) := by
  cases kind with
  | register =>
    rw [act]
    cases hcompile : p.compileWith c.materializers c.stack ∅ with
    | error e =>
      rw [register_of_error hcompile]
      exact .inl (.refl w)
    | ok compiled =>
      rw [register_of_ok hcompile]
      exact .inr (.refl _)
  | build =>
    rw [act]
    cases hcompile : p.compile c.materializers c.stack with
    | error e =>
      rw [build_of_error hcompile]
      exact .inl (.refl w)
    | ok compiled =>
      rw [← Pipeline.spec_of_compile hcompile]
      exact .inr (build_registers hcompile)
  | run =>
    rw [act]
    cases hopen : c.isSuppressed w with
    | true =>
      rw [run_of_suppressed hopen]
      exact .inl (.refl w)
    | false =>
      rw [run_of_open hopen]
      cases hcompile : p.compile c.materializers c.stack with
      | error e =>
        rw [dispatch_of_error hcompile]
        exact .inl (.refl w)
      | ok compiled =>
        have hdispatch := (dispatch_registers (w := w) hcompile).1
        rw [← Pipeline.spec_of_compile hcompile]
        cases hlisted : c.registers p with
        | true =>
          rw [registerRun_of_listed hlisted] at hdispatch
          exact .inr hdispatch
        | false =>
          rw [registerRun_of_unlisted hlisted] at hdispatch
          exact .inl hdispatch

/-- A call that yields a version has registered the own spec. -/
theorem Yields.registers {kind : CallKind} (h : c.Yields p w record kind) :
    (registerSpec p p.ownSpec w).1 = .ok record
    ∧ (registerSpec p p.ownSpec w).2.SameVersions (c.act p w kind) := by
  cases h with
  | register answer =>
    rw [act]
    cases hcompile : p.compileWith c.materializers c.stack ∅ with
    | error e => cases (congrArg Prod.fst (register_of_error hcompile)).symm.trans answer
    | ok compiled =>
      rw [register_of_ok hcompile] at answer ⊢
      exact ⟨answer, .refl _⟩
  | build hcompile registered answer =>
    rw [← Pipeline.spec_of_compile hcompile]
    exact ⟨registered, build_registers hcompile⟩
  | @run records answer listed =>
    rw [act]
    cases hopen : c.isSuppressed w with
    | true => cases (congrArg Prod.fst (run_of_suppressed hopen)).symm.trans answer
    | false =>
      rw [run_of_open hopen] at answer ⊢
      obtain ⟨_, hdispatch, hrecords⟩ := map_eq_ok_iff.1 answer
      cases hrecords
      cases hcompile : p.compile c.materializers c.stack with
      | error e => cases (congrArg Prod.fst (dispatch_of_error hcompile w)).symm.trans hdispatch
      | ok compiled =>
        obtain ⟨hsame, hanswer⟩ := dispatch_registers (w := w) hcompile
        have hregister := hanswer records hdispatch
        rw [listed] at hregister
        rw [← Pipeline.spec_of_compile hcompile]
        cases hlisted : c.registers p with
        | true =>
          rw [registerRun_of_listed hlisted] at hregister hsame
          obtain ⟨_, hspec, hrecord⟩ := map_eq_ok_iff.1 hregister
          cases hrecord
          exact ⟨hspec, hsame⟩
        | false =>
          rw [registerRun_of_unlisted hlisted] at hregister
          cases hregister

end Coordinator

/-! ## Calls one after the other -/

open Coordinator

/-- Any coordinators register, build and run a prepared pipeline under any configurations, one after
the other, and nobody else writes versions of it in between. The records are those that the calls
have yielded which succeeded and registered, the last one first. -/
inductive Registrations (p : Pipeline) (w : World) :
    List (Record PipelineVersion) → World → Prop where
  | start : Registrations p w [] w
  | yields {records : List (Record PipelineVersion)} {w' : World}
      (earlier : Registrations p w records w') {c : Coordinator} {q : Pipeline}
      (same : q.SameIdentity p) {kind : CallKind} {record : Record PipelineVersion}
      (answer : c.Yields q w' record kind) :
      Registrations p w (record :: records) (c.act q w' kind)
  /-- A call whose outcome does not matter. -/
  | attempt {records : List (Record PipelineVersion)} {w' : World}
      (earlier : Registrations p w records w') (c : Coordinator) {q : Pipeline}
      (same : q.SameIdentity p) (kind : CallKind) : Registrations p w records (c.act q w' kind)
  /-- Whatever else happens, the versions of the pipeline stay as they are. -/
  | meanwhile {records : List (Record PipelineVersion)} {w' w'' : World}
      (earlier : Registrations p w records w')
      (same : w''.store.versions p.name = w'.store.versions p.name) : Registrations p w records w''

namespace Registrations

variable {p : Pipeline} {w w' : World} {records : List (Record PipelineVersion)}

/-- A version that a call would find is still the one to be found after any call. -/
theorem versionOf?_act {c : Coordinator} {q : Pipeline} {kind : CallKind} {hash : String}
    {record : Record PipelineVersion} (same : q.SameIdentity p)
    (hhash : p.versionHash p.ownSpec = .ok hash)
    (h : w.store.versionOf? p.name hash = some record) :
    (c.act q w kind).store.versionOf? p.name hash = some record := by
  have hname : q.name = p.name := same.name
  have hkeeps : w.SameVersions (c.act q w kind) := by
    rcases c.sameVersions_act q w kind with hkeeps | hregisters
    · exact hkeeps
    · have hhash' : q.versionHash q.ownSpec = .ok hash := by
        rw [same.ownSpec_eq, same.versionHash_eq, hhash]
      have hfound : w.store.versionOf? q.name hash = some record := by rw [hname, h]
      exact (registerSpec_of_versionOf? hhash' hfound).2.trans hregisters
  rw [Store.versionOf?_of_versions_eq (hkeeps.versions_eq p.name), h]

/-- The version that was yielded is the one that any further call would find. -/
theorem versionOf?_of_mem (h : Registrations p w records w') :
    ∀ record ∈ records, ∃ hash, p.versionHash p.ownSpec = .ok hash
      ∧ w'.store.versionOf? p.name hash = some record := by
  induction h with
  | start => exact List.forall_mem_nil _
  | @yields records w' earlier c q same kind record answer ih =>
    have hname : q.name = p.name := same.name
    rw [List.forall_mem_cons]
    constructor
    · obtain ⟨hregister, hsame⟩ := answer.registers
      obtain ⟨hash, hhash, hversion⟩ := versionOf?_of_registerSpec hregister
      rw [same.ownSpec_eq, same.versionHash_eq] at hhash
      rw [hname, ← Store.versionOf?_of_versions_eq (hsame.versions_eq p.name)] at hversion
      exact ⟨hash, hhash, hversion⟩
    · intro record hrecord
      obtain ⟨hash, hhash, hversion⟩ := ih record hrecord
      exact ⟨hash, hhash, versionOf?_act same hhash hversion⟩
  | attempt earlier c same kind ih =>
    intro record hrecord
    obtain ⟨hash, hhash, hversion⟩ := ih record hrecord
    exact ⟨hash, hhash, versionOf?_act same hhash hversion⟩
  | meanwhile earlier same ih =>
    intro record hrecord
    obtain ⟨hash, hhash, hversion⟩ := ih record hrecord
    exact ⟨hash, hhash, by rw [Store.versionOf?_of_versions_eq same, hversion]⟩

end Registrations

namespace Pipeline

/-- However a prepared pipeline is configured, for whatever stack and with whatever run
configuration it is compiled: the spec is the same, and so is the version hash. Hence all calls that
register it and succeed yield one record, if nobody else writes versions of it. -/
theorem version_unique (p : Pipeline) :
    (∀ {q q' : Pipeline} {m m' : Materializers} {stack stack' : Stack} {run run' : RunConfiguration}
        {d d' : Deployment} {spec spec' : Spec}, q.SameIdentity p → q'.SameIdentity p →
        q.compileWith m stack run = .ok (d, spec) → q'.compileWith m' stack' run' = .ok (d', spec') →
        spec = spec' ∧ q.versionHash spec = q'.versionHash spec')
    ∧ ∀ {w w' : World} {records : List (Record PipelineVersion)}, Registrations p w records w' →
        ∀ a ∈ records, ∀ b ∈ records, a = b := by
  constructor
  · intro q q' m m' stack stack' run run' d d' spec spec' hq hq' h h'
    have hspec : spec = spec' := by
      rw [spec_of_compileWith h, spec_of_compileWith h', hq.ownSpec_eq, hq'.ownSpec_eq]
    exact ⟨hspec, by rw [hspec, hq.versionHash_eq, hq'.versionHash_eq]⟩
  · intro w w' records h a ha b hb
    obtain ⟨hash, hhash, hversion⟩ := h.versionOf?_of_mem a ha
    obtain ⟨hash', hhash', hversion'⟩ := h.versionOf?_of_mem b hb
    cases hhash.symm.trans hhash'
    exact Option.some.inj (hversion.symm.trans hversion')

end Pipeline

namespace Sample

/-- The prepared pipeline, configured not to be cached. -/
def uncached : Pipeline :=
  { prepared with configuration :=
      prepared.configuration.updated (({} : PipelineLayer).withEnableCache false) .merge }

/-- Whoever runs on another stack. -/
def otherCoordinator : Coordinator where
  stack := .recording (.ofNat 2)
  materializers := .standard

theorem sameIdentity_uncached : uncached.SameIdentity prepared := ⟨rfl, rfl, rfl, rfl, rfl⟩

theorem exists_compileWith_uncached : ∃ d spec,
    uncached.compileWith otherCoordinator.materializers otherCoordinator.stack ∅
      = .ok (d, spec) := by
  have haccepted : (uncached.compileWith otherCoordinator.materializers otherCoordinator.stack
      ∅).isOk = true := by decide +kernel
  cases hcompile : uncached.compileWith otherCoordinator.materializers otherCoordinator.stack ∅ with
  | error e => simp [hcompile, Except.isOk, Except.toBool] at haccepted
  | ok compiled => exact ⟨_, _, rfl⟩

/-- The sample pipeline is run, and then registered for another stack without being cached: the
registration answers with the record of the run. -/
theorem version_unique_uncached :
    (∃ d spec, uncached.compileWith .standard (.recording (.ofNat 2)) ∅ = .ok (d, spec)
      ∧ prepared.compileWith .standard (.recording (.ofNat 1)) ∅ = .ok compiled
      ∧ spec = compiled.2 ∧ uncached.versionHash spec = prepared.versionHash compiled.2)
    ∧ ∃ a b w, Registrations prepared preparedSession.world [b, a] w ∧ b = a := by
  obtain ⟨d, spec, hcompile⟩ := exists_compileWith_uncached
  have hprepared : prepared.compileWith .standard (.recording (.ofNat 1)) ∅ = .ok compiled := rfl
  obtain ⟨hsame, hhash⟩ := (Pipeline.version_unique prepared).1 sameIdentity_uncached (.refl _)
    hcompile hprepared
  refine ⟨⟨d, spec, hcompile, hprepared, hsame, hhash⟩, ?_⟩
  obtain ⟨v, w₁, hregister, -⟩ := exists_registerSpec_prepared
  obtain ⟨records, w₂, hdispatch, hlisted, -⟩ := exists_dispatch_of_registerSpec hregister
  have hrun : coordinator.act prepared preparedSession.world .run = w₂
      ∧ coordinator.Yields prepared preparedSession.world v .run := by
    have hopen : coordinator.isSuppressed preparedSession.world = false := rfl
    have heq := run_of_open (p := prepared) hopen
    rw [hdispatch] at heq
    exact ⟨congrArg Prod.snd heq, .run (congrArg Prod.fst heq) hlisted⟩
  obtain ⟨hworld, hyields⟩ := hrun
  have hfirst := Registrations.start.yields (.refl prepared) hyields
  rw [hworld] at hfirst
  obtain ⟨hash, hown, hversion⟩ := hfirst.versionOf?_of_mem v List.mem_cons_self
  rw [← sameIdentity_uncached.versionHash_eq, ← sameIdentity_uncached.ownSpec_eq] at hown
  have hagain := (registerSpec_of_versionOf? hown hversion).1
  rw [← register_of_ok hcompile] at hagain
  have hsecond := hfirst.yields sameIdentity_uncached
    (.register (congrArg Prod.fst hagain))
  exact ⟨v, v, _, hsecond, (Pipeline.version_unique prepared).2 hsecond v List.mem_cons_self v
    (List.mem_cons_of_mem _ List.mem_cons_self)⟩

end Sample

end Pipework
