import Pipework.Proofs.Dispatch.History
import Pipework.Proofs.Text.Append

/-!
# Where a run finds its code

The images of some builds hold no code: a run with such a build has to download it. Whether images
download code is settled when the build is made, and the commit to download is found out anew by
each run, from its own checkout. A build that is made or reused for a run fits its checkout, because
the checksum covers this choice. A build that a run asks for by its id need not: it is checked for
its stack only. `History.codeReference_isSome_iff` says that there is no other way to a run without
a commit.
-/

namespace Pipework

/-! ## Checksums -/

/-- Two texts that are known by the same digest. -/
structure Digest.Collide (s t : String) : Prop where
  ne : s ≠ t
  digest : sha256Hex s = sha256Hex t

namespace BuildRequirement

theorem checksumText_ne (l m : List BuildRequirement) :
    checksumText l true ≠ checksumText m false := by
  intro h
  simp only [checksumText, if_true, Bool.false_eq_true, if_false] at h
  obtain ⟨-, hmark⟩ := Text.append_inj_of_length_right h (by decide)
  exact absurd hmark (by decide)

theorem collide_of_checksum {l m : List BuildRequirement}
    (h : checksum l true = checksum m false) :
    Digest.Collide (checksumText l true) (checksumText m false) := ⟨checksumText_ne l m, h⟩

end BuildRequirement

/-- The checksum of the build is that of its requirements. -/
def Build.Checked (b : Build) : Prop :=
  b.checksum = BuildRequirement.checksum b.requirements b.downloadsCode

/-- All builds of a store have the checksums of their requirements. -/
def Store.Checked (s : Store) : Prop := ∀ b ∈ s.builds, b.body.Checked

/-! ## What a run supplies -/

namespace Coordinator

variable {c : Coordinator} {d : Deployment} {w : World}

theorem checked_newBuild {pipeline : Option Uuid} {downloads : Bool} {s : Store} :
    (c.newBuild d pipeline downloads s).Checked := rfl

/-- The build that a run resolves to serves it, and its checksum is right if all stored ones are. -/
theorem serves_of_resolveBuild {pipeline : Option Uuid} {downloads reuse : Bool}
    {build : Record Build} (hchecked : w.store.Checked)
    (h : (c.resolveBuild d pipeline downloads reuse w).1 = .ok (some build)) :
    c.Serves d downloads build ∧ build.body.Checked := by
  rcases c.resolveBuild_eq (d := d) (w := w) pipeline downloads reuse with
    ⟨e, heq⟩ | heq | ⟨b, hstored, -, hserves, heq⟩ | heq
  all_goals
    rw [heq] at h
    cases h
  · exact ⟨hserves, hchecked build hstored⟩
  · exact ⟨.inr rfl, checked_newBuild⟩

/-- Whether code of a checkout without changes can be downloaded. -/
def Clean (c : Coordinator) : Prop := c.checkout.any (!·.dirty) = true

theorem isSome_codeReference_iff :
    (c.checkout.bind (·.codeReference? c.sourceRoot)).isSome ↔ c.Clean := by
  rw [Clean]
  cases c.checkout with
  | none => simp
  | some checkout => cases hdirty : checkout.dirty <;> simp [Checkout.codeReference?, hdirty]

theorem clean_of_downloadsCode (h : c.downloadsCode d = true) : c.Clean := by
  simp only [downloadsCode, Bool.and_eq_true] at h
  exact h.2

end Coordinator

/-- A deployment is recorded with the code of the coordinator that runs it, and with a build that
serves it, if it has one. -/
structure DeploymentEntry.Supplied (e : DeploymentEntry) (c : Coordinator) (d : Deployment)
    (s : Store) : Prop where
  codeReference : e.codeReference = c.checkout.bind (·.codeReference? c.sourceRoot)
  build : ∀ id, e.build = some id →
    ∃ b ∈ s.builds, b.id = id ∧ c.Serves d (c.downloadsCode d) b

/-- Whether a run that is at a stage has found a build that serves it, if it has one. -/
def RunStage.Served (c : Coordinator) (d : Deployment) (s : Store) : RunStage → Prop
  | .record _ _ found => ∀ b, found = some b → b ∈ s.builds ∧ c.Serves d (c.downloadsCode d) b
  | _ => True

/-- Whether a request is for a build with the right checksum, or for a deployment that is supplied
with what it needs, if it is for one of these. -/
def RunRequest.Supplied (c : Coordinator) (deploys : Deployment → Prop) (s : Store) :
    RunRequest → Prop
  | .createBuild build => build.Checked
  | .createDeployment entry => ∃ d, deploys d ∧ entry.Supplied c d s
  | _ => True

/-- Whether what a coordinator has added to a world are builds with the right checksums and
deployments that are supplied with what they need. -/
structure World.Supplies (c : Coordinator) (deploys : Deployment → Prop) (w w' : World) : Prop where
  builds : w.store.builds ⊆ w'.store.builds
  checked : w.store.Checked → w'.store.Checked
  deployments : ∀ r ∈ w'.store.deployments,
    r ∈ w.store.deployments ∨ ∃ d, deploys d ∧ r.body.Supplied c d w'.store

variable {c : Coordinator} {p : Pipeline} {d : Deployment} {spec : Spec} {w w' w'' : World}
  {deploys : Deployment → Prop}

theorem DeploymentEntry.Supplied.mono {e : DeploymentEntry} {s s' : Store}
    (h : e.Supplied c d s) (hs : s.builds ⊆ s'.builds) : e.Supplied c d s' where
  codeReference := h.codeReference
  build id hid := by
    obtain ⟨b, hb, hserves⟩ := h.build id hid
    exact ⟨b, hs hb, hserves⟩

namespace World

namespace Supplies

theorem of_same (hbuilds : w'.store.builds = w.store.builds)
    (hdeployments : w'.store.deployments = w.store.deployments) : w.Supplies c deploys w' where
  builds := by rw [hbuilds]; exact List.Subset.refl _
  checked h := by rwa [Store.Checked, hbuilds]
  deployments r hr := by
    rw [hdeployments] at hr
    exact .inl hr

theorem refl (w : World) : w.Supplies c deploys w := .of_same rfl rfl

theorem trans (h : w.Supplies c deploys w') (h' : w'.Supplies c deploys w'') :
    w.Supplies c deploys w'' where
  builds := List.Subset.trans h.builds h'.builds
  checked := h'.checked ∘ h.checked
  deployments r hr := by
    rcases h'.deployments r hr with hr | hnew
    · refine (h.deployments r hr).imp_right ?_
      rintro ⟨d, hdeploys, hsupplied⟩
      exact ⟨d, hdeploys, hsupplied.mono h'.builds⟩
    · exact .inr hnew

theorem bind {α β : Type} {x : Effect α} {f : α → Effect β} (hx : w.Supplies c deploys (x w).2)
    (hf : ∀ a (w' : World), w'.Supplies c deploys (f a w').2) :
    w.Supplies c deploys ((x >>= f) w).2 :=
  Effect.rel_bind .trans hx fun a _ => hf a _

end Supplies

/-- Versions leave builds and deployments alone. -/
theorem records_createPipeline (w : World) (v : PipelineVersion) :
    (w.createPipeline v).2.store.builds = w.store.builds
    ∧ (w.createPipeline v).2.store.deployments = w.store.deployments := by
  refine createPipeline_induction (P := fun w' => w'.store.builds = w.store.builds
    ∧ w'.store.deployments = w.store.deployments) (fun _ _ h => h) (fun w' v h => ?_) v ⟨rfl, rfl⟩
  obtain ⟨calls, ⟨cause, hadd⟩ | hadd⟩ := w'.addPipeline_eq v
  all_goals
    rw [hadd]
    exact h

theorem supplies_perform {r : RunRequest} (h : r.Supplied c deploys w.store) :
    w.Supplies c deploys (w.perform r) := by
  have hbuilds : w.store.builds ⊆ (w.perform r).store.builds :=
    (w.extends_perform r).builds.subset
  cases r with
  | lookUp | createSchedule | prepare | deploy | report => exact .of_same rfl rfl
  | createVersion v =>
    obtain ⟨hsame, hsame'⟩ := w.records_createPipeline v
    rcases hcreate : w.createPipeline v with ⟨cause | record, w'⟩
    · rw [perform_createVersion_of_error hcreate]
      rw [hcreate] at hsame hsame'
      exact .of_same hsame hsame'
    · rw [perform_createVersion_of_ok hcreate]
      rw [hcreate] at hsame hsame'
      exact .of_same hsame hsame'
  | createBuild build =>
    refine ⟨hbuilds, fun hchecked b hb => ?_, fun _ => .inl⟩
    rcases List.mem_append.1 hb with hb | hb
    · exact hchecked b hb
    · rw [List.mem_singleton.1 hb]
      exact h
  | createDeployment entry =>
    refine ⟨hbuilds, fun hchecked => hchecked, fun r hr => ?_⟩
    refine (List.mem_append.1 hr).imp_right fun hnew => ?_
    rw [List.mem_singleton.1 hnew]
    obtain ⟨d, hd, hsupplied⟩ := h
    exact ⟨d, hd, hsupplied.mono hbuilds⟩

theorem supplies_single {r : RunRequest} (h : r.Supplied c deploys w.store) :
    w.Supplies c deploys (w.performAll [r]) := supplies_perform h

/-- A registration adds neither builds nor deployments. -/
theorem supplies_registration {requests : List RunRequest}
    (h : ∀ r ∈ requests, r.phase = .registration) :
    w.Supplies c deploys (w.performAll requests) := by
  induction requests generalizing w with
  | nil => exact .refl w
  | cons r requests ih =>
    obtain ⟨hr, hrequests⟩ := List.forall_mem_cons.1 h
    have hsupplied : r.Supplied c deploys w.store := by
      cases r with
      | createBuild | createDeployment => cases hr
      | _ => trivial
    exact (supplies_perform hsupplied).trans (ih hrequests)

end World

namespace Coordinator

variable {stage : RunStage} {requests : List RunRequest}

theorem resolveBuild_of_advance {pipeline : Option (Record PipelineVersion)}
    {schedule : Option (Record ScheduleEntry)} {found : Option (Record Build)}
    (h : c.advance p d spec (.build pipeline schedule) w
      = (.ok (.record pipeline schedule found), w')) :
    (c.resolveBuild d (pipeline.map Record.id) (c.downloadsCode d)
      (!p.options.preventBuildReuse) w).1 = .ok found := by
  rw [advance, Effect.map_eq] at h
  obtain ⟨_, hfound, hstage⟩ := map_eq_ok_iff.1 (congrArg Prod.fst h)
  cases hstage
  exact hfound

/-- The deployment that a run records is supplied with what it needs, if the run has found a build
that serves it. -/
theorem supplied_entryFor {pipeline : Option (Record PipelineVersion)}
    {schedule : Option (Record ScheduleEntry)} {found : Option (Record Build)}
    {keys : CacheKey.Keys} {user workspace : Uuid} {s : Store}
    (h : (RunStage.record pipeline schedule found).Served c d s) :
    (c.entryFor d pipeline schedule found keys user workspace).Supplied c d s where
  codeReference := rfl
  build id hid := by
    obtain ⟨b, hb, rfl⟩ := Option.map_eq_some_iff.1 hid
    obtain ⟨hstored, hserves⟩ := h b hb
    exact ⟨b, hstored, rfl, hserves⟩

/-- At each stage a run adds only what is as it should be, and it goes on with a build that serves
it. -/
theorem Advance.supplies {outcome : Except Error RunStage}
    (h : c.Advance p d spec w stage requests outcome)
    (hstep : c.advance p d spec stage w = (outcome, w.performAll requests))
    (hserved : stage.Served c d w.store) (hchecked : w.store.Checked) (hd : deploys d) :
    w.Supplies c deploys (w.performAll requests)
    ∧ ∀ stage', outcome = .ok stage' → stage'.Served c d (w.performAll requests).store := by
  cases h with
  | registered phases =>
    refine ⟨World.supplies_registration phases, ?_⟩
    rintro _ ⟨⟩
    trivial
  | unregistered phases => exact ⟨World.supplies_registration phases, by rintro _ ⟨⟩⟩
  | unlisted | unscheduled | finished =>
    refine ⟨.refl w, ?_⟩
    rintro _ ⟨⟩
    trivial
  | scheduled | prepared | deployed | reported =>
    refine ⟨World.supplies_single trivial, ?_⟩
    rintro _ ⟨⟩
    trivial
  | unusable | unkeyed => exact ⟨.refl w, by rintro _ ⟨⟩⟩
  | unprepared | undeployed => exact ⟨World.supplies_single trivial, by rintro _ ⟨⟩⟩
  | unbuilt =>
    refine ⟨.refl w, ?_⟩
    rintro _ ⟨⟩ b ⟨⟩
  | reused stored =>
    obtain ⟨hserves, -⟩ := serves_of_resolveBuild hchecked (resolveBuild_of_advance hstep)
    refine ⟨.refl w, ?_⟩
    rintro _ ⟨⟩ b ⟨⟩
    exact ⟨stored, hserves⟩
  | built =>
    obtain ⟨hserves, hcorrect⟩ := serves_of_resolveBuild hchecked (resolveBuild_of_advance hstep)
    refine ⟨World.supplies_single hcorrect, ?_⟩
    rintro _ ⟨⟩ b ⟨⟩
    exact ⟨List.mem_append_right _ List.mem_cons_self, hserves⟩
  | recorded =>
    refine ⟨World.supplies_single ⟨d, hd, supplied_entryFor hserved⟩, ?_⟩
    rintro _ ⟨⟩
    trivial

/-- A run adds only what is as it should be. -/
theorem Trace.supplies {result : Except Error RunRecords}
    (h : c.Trace p d spec stage w requests result) (hserved : stage.Served c d w.store)
    (hchecked : w.store.Checked) (hd : deploys d) :
    w.Supplies c deploys (w.performAll requests) := by
  induction h with
  | done records w => exact .refl w
  | failed advance step => exact (advance.supplies step hserved hchecked hd).1
  | next advance step _ ih =>
    obtain ⟨hsupplies, hnext⟩ := advance.supplies step hserved hchecked hd
    rw [World.performAll_append]
    exact hsupplies.trans (ih (hnext _ rfl) (hsupplies.checked hchecked))

theorem supplies_registerSpec (p : Pipeline) (spec : Spec) (w : World) :
    w.Supplies c deploys (registerSpec p spec w).2 := by
  obtain ⟨requests, hphases, hworld, -⟩ := exists_requests_registerSpec p spec w
  rw [hworld]
  exact World.supplies_registration hphases

theorem supplies_register (c : Coordinator) (p : Pipeline) (w : World) :
    w.Supplies c deploys (c.register p w).2 :=
  .bind (.refl w) fun compiled w' => supplies_registerSpec p compiled.2 w'

theorem supplies_createBuild (c : Coordinator) (d : Deployment) (pipeline : Option Uuid)
    (downloads : Bool) (w : World) :
    w.Supplies c deploys (c.createBuild d pipeline downloads w).2 := by
  rcases c.createBuild_eq (d := d) (w := w) pipeline downloads with hnone | hcreated
  · rw [hnone]
    exact .refl w
  · have hchecked : RunRequest.Supplied c deploys w.store
        (.createBuild (c.newBuild d pipeline downloads w.store)) := checked_newBuild
    rw [hcreated]
    exact World.supplies_perform hchecked

theorem supplies_build (c : Coordinator) (p : Pipeline) (w : World) :
    w.Supplies c deploys (c.build p w).2 :=
  .bind (.refl w) fun compiled w' => .bind (supplies_registerSpec p compiled.2 w') fun _ w' =>
    .bind (c.supplies_createBuild _ _ _ w') fun _ _ => .bind (.of_same rfl rfl) fun _ w' => .refl w'

end Coordinator

/-! ## Calls -/

variable {σ : Type}

theorem Call.supplies (call : Call σ) (s : Session σ) (hchecked : s.world.store.Checked) :
    s.world.Supplies call.coordinator (fun d => ∃ p spec, call.Deploys s p d spec)
      (call.perform s).world := by
  -- Only where all checksums are right is what a call finds in the store right as well.
  refine call.rel (R := fun w w' => w.store.Checked → w.Supplies call.coordinator
    (fun d => ∃ p spec, call.Deploys s p d spec) w') s ?_ ?_ ?_ ?_ ?_ hchecked
  · intro w w' w'' h h' hchecked
    exact (h hchecked).trans (h' ((h hchecked).checked hchecked))
  · intro w n _
    exact .of_same rfl rfl
  · intro p w _
    exact call.coordinator.supplies_register p w
  · intro p w _
    exact call.coordinator.supplies_build p w
  · intro p d spec w requests result _ deploys _ trace hchecked
    exact trace.supplies trivial hchecked ⟨p, spec, deploys⟩

/-! ## Histories -/

/-- All builds have the right checksums, and each deployment is supplied with what it needs by a
call that it comes from. -/
structure Store.Supplied (s : Store) (past : List (PastCall σ)) : Prop where
  checked : s.Checked
  deployments : ∀ r ∈ s.deployments, ∃ call ∈ past, call.Records r
    ∧ ∃ p d spec, call.Deploys call.before p d spec ∧ r.body.Supplied call.coordinator d s

namespace History

variable {past : List (PastCall σ)} {s : Session σ}

theorem supplied (h : History past s) : s.world.store.Supplied past := by
  induction h with
  | start pipelines schedules builds deployments =>
    refine ⟨?_, ?_⟩
    · rw [Store.Checked, builds]
      exact List.forall_mem_nil _
    · rw [deployments]
      exact List.forall_mem_nil _
  | @call past s h call ih =>
    have hsupplies := call.supplies s ih.checked
    refine ⟨hsupplies.checked ih.checked, fun r hr => ?_⟩
    by_cases hold : r ∈ s.world.store.deployments
    · obtain ⟨earlier, hearlier, hrecords, p, d, spec, hdeploys, hsupplied⟩ :=
        ih.deployments r hold
      exact ⟨earlier, List.mem_cons_of_mem _ hearlier, hrecords, p, d, spec, hdeploys,
        hsupplied.mono hsupplies.builds⟩
    · obtain ⟨d, ⟨p, spec, hdeploys⟩, hsupplied⟩ :=
        (hsupplies.deployments r hr).resolve_left hold
      exact ⟨{ call with before := s }, List.mem_cons_self, ⟨hold, hr⟩, p, d, spec, hdeploys,
        hsupplied⟩
  | @meanwhile past s s' h same ih =>
    refine ⟨?_, fun r hr => ?_⟩
    · rw [Store.Checked, same.builds]
      exact ih.checked
    · rw [same.deployments] at hr
      obtain ⟨call, hcall, hrecords, p, d, spec, hdeploys, hsupplied⟩ := ih.deployments r hr
      refine ⟨call, hcall, hrecords, p, d, spec, hdeploys, hsupplied.mono ?_⟩
      rw [same.builds]
      exact List.Subset.refl _

/-- Where identifiers are fresh, no two builds share one. -/
theorem build_eq_of_id_eq (h : History past s) (fresh : s.world.ids.Fresh) {a b : Record Build}
    (ha : a ∈ s.world.store.builds) (hb : b ∈ s.world.store.builds) (hid : a.id = b.id) :
    a = b := by
  have hnodup := h.stamped.nodup fresh
  rw [Store.recordIds] at hnodup
  have hbuilds := (List.nodup_append.1 (List.nodup_append.1 (List.nodup_append.1 hnodup).2.1).2.1).1
  exact List.inj_on_of_nodup_map hbuilds ha hb hid

/-- A deployment with a build that downloads code refers to a commit if and only if it was run from
a clean checkout. Where it does not, the run has asked for the build by its id, unless two different
lists of requirements have the same digest. -/
theorem codeReference_isSome_iff (h : History past s) (fresh : s.world.ids.Fresh)
    {r : Record DeploymentEntry} {b : Record Build} (hr : r ∈ s.world.store.deployments)
    (hb : b ∈ s.world.store.builds) (hbuild : r.body.build = some b.id)
    (hdownloads : b.body.downloadsCode = true) :
    ∃ call ∈ past, call.Records r ∧ ∃ p d spec, call.Deploys call.before p d spec
      ∧ (r.body.codeReference.isSome ↔ call.coordinator.Clean)
      ∧ (call.coordinator.Clean ∨ d.build = some b.id
        ∨ Digest.Collide (BuildRequirement.checksumText b.body.requirements true)
          (BuildRequirement.checksumText (call.coordinator.stack.requirements d) false)) := by
  obtain ⟨hchecked, hdeployments⟩ := h.supplied
  obtain ⟨call, hcall, hrecords, p, d, spec, hdeploys, hsupplied⟩ := hdeployments r hr
  refine ⟨call, hcall, hrecords, p, d, spec, hdeploys, ?_, ?_⟩
  · rw [hsupplied.codeReference]
    exact Coordinator.isSome_codeReference_iff
  · obtain ⟨b', hb', hid, hserves⟩ := hsupplied.build b.id hbuild
    cases h.build_eq_of_id_eq fresh hb' hb hid
    rcases hserves with hasked | hchecksum
    · exact .inr (.inl hasked)
    · have hsame := (hchecked b hb).symm.trans hchecksum
      rw [hdownloads] at hsame
      cases hclean : call.coordinator.downloadsCode d with
      | true => exact .inl (Coordinator.clean_of_downloadsCode hclean)
      | false =>
        rw [hclean] at hsame
        exact .inr (.inr (BuildRequirement.collide_of_checksum hsame))

end History

namespace Sample

open Coordinator

/-- A coordinator in a clean checkout, for a stack that needs an image. -/
def builder : Coordinator where
  stack := .recording (.ofNat 1) "recording" [] ["orchestrator"]
  materializers := .standard
  checkout := some
    { repository := .ofNat 7, root := "/work/repo", commit := "3f2a9c1", dirty := false }
  sourceRoot := "/work/repo"

/-- A coordinator for the same stack outside of any checkout. -/
def runner : Coordinator := { builder with checkout := none }

/-- The sample pipeline, to be run with a build of its own and without being registered. -/
def withBuild (build : Uuid) : Pipeline :=
  prepared.withOptions { run := (∅ : RunConfiguration).withBuild build, unlisted := true }

def buildCall : Call Unit where
  kind := .build
  coordinator := builder
  workflow := ⟨prepared, entry⟩
  built := built_prepared

def runCall (build : Uuid) : Call Unit where
  kind := .run
  coordinator := runner
  workflow := ⟨withBuild build, entry⟩
  built := built_prepared.withOptions _

/-- The clean checkout leads to a build that downloads its code. -/
theorem exists_build : ∃ b w, (builder.build prepared preparedSession.world).2 = w
    ∧ w.store.builds = [b] ∧ w.store.deployments = [] ∧ b.body.downloadsCode = true
    ∧ b.body.stack = runner.stack.id ∧ w.ids = preparedSession.world.ids.after 2
    ∧ runner.isSuppressed w = false := by
  obtain ⟨v, w, hregister, hids, hguard, hbuilds, hdeployments⟩ := exists_registerSpec_prepared
  have hcompile : prepared.compile builder.materializers builder.stack
      = .ok (compiled.1, compiled.2) := rfl
  have hcreate : builder.createBuild compiled.1 (some v.id) (builder.downloadsCode compiled.1) w
      = (.ok (some (w.createBuild (builder.newBuild compiled.1 (some v.id) true w.store)).1),
        w.perform (.createBuild (builder.newBuild compiled.1 (some v.id) true w.store))) := rfl
  obtain ⟨event, hbuild⟩ := exists_event_build hcompile hregister hcreate
  refine ⟨(w.createBuild (builder.newBuild compiled.1 (some v.id) true w.store)).1, _,
    congrArg Prod.snd hbuild, ?_, hdeployments, rfl, rfl, ?_, ?_⟩
  · exact congrArg (· ++ [_]) hbuilds
  · exact congrArg (·.next.2) hids
  · exact congrArg (fun g => (false || g.suppressed)) hguard

/-- A run of the same stack from no checkout, with such a build. -/
theorem exists_dispatch_withBuild {b : Record Build} {w : World} (hbuilds : w.store.builds = [b])
    (hdeployments : w.store.deployments = []) (hstack : b.body.stack = runner.stack.id) :
    ∃ records w', runner.dispatch (withBuild b.id) w = (.ok records, w')
      ∧ w'.store.builds = [b] ∧ w'.store.deployments = [records.deployment]
      ∧ records.deployment.body.build = some b.id
      ∧ records.deployment.body.codeReference = none ∧ w'.ids = w.ids.next.2 := by
  obtain ⟨keys, hprepared⟩ := exists_cacheKeys_prepared
  have hkeys : cacheKeys (withBuild b.id) { compiled.1 with build := some b.id } = .ok keys :=
    hprepared
  have hregister : runner.registerRun (withBuild b.id) compiled.2 w = (.ok none, w) := rfl
  have hschedule : runner.createSchedule { compiled.1 with build := some b.id } none w
      = (.ok none, w) := rfl
  have hcompile : (withBuild b.id).compile runner.materializers runner.stack
      = .ok ({ compiled.1 with build := some b.id }, compiled.2) := rfl
  have hresolve : runner.resolveBuild { compiled.1 with build := some b.id } none
      (runner.downloadsCode { compiled.1 with build := some b.id })
      (!(withBuild b.id).options.preventBuildReuse) w = (.ok (some b), w) := by
    have hexplicit : runner.explicitBuild { compiled.1 with build := some b.id } b.id w
        = (.ok b, w) := by
      simp [explicitBuild, Store.getBuild, hbuilds, hstack]
    exact Effect.map_of_ok hexplicit
  obtain ⟨records, w', hdispatch, -, hbody, hbuilds', hdeployments', hids⟩ :=
    exists_dispatch hcompile hregister hschedule hresolve hkeys (fun _ => rfl) (fun _ => rfl)
  refine ⟨records, w', hdispatch, hbuilds'.trans hbuilds, ?_, ?_, ?_, hids⟩
  · rw [hdeployments', hdeployments, List.nil_append]
  · rw [hbody]
    rfl
  · rw [hbody]
    rfl

/-- After the build a run has been made with it from no checkout. -/
theorem exists_history : ∃ past s b r, History (σ := Unit) past s ∧ s.world.ids.Fresh
    ∧ s.world.store.builds = [b] ∧ s.world.store.deployments = [r]
    ∧ r.body.build = some b.id ∧ b.body.downloadsCode = true ∧ r.body.codeReference = none := by
  obtain ⟨b, w, hbuild, hbuilds, hdeployments, hdownloads, hstack, hids, hopen⟩ := exists_build
  obtain ⟨records, w', hdispatch, hbuilds', hdeployments', hasked, hcode, hids'⟩ :=
    exists_dispatch_withBuild hbuilds hdeployments hstack
  have hbuilt : (buildCall.perform preparedSession).world = w := hbuild
  have hrun : ((runCall b.id).perform (buildCall.perform preparedSession)).world = w' := by
    change ((runCall b.id).workflow.run runner (withBuild b.id)
      (buildCall.perform preparedSession)).2.2.world = w'
    have hprepare : (runCall b.id).workflow.prepareIfPossible (withBuild b.id)
        (buildCall.perform preparedSession)
        = (.ok (), withBuild b.id, buildCall.perform preparedSession) := rfl
    rw [Workflow.run, hbuilt, hopen, if_neg Bool.false_ne_true, Workflow.bind_of_ok hprepare,
      Workflow.effect, hbuilt, Effect.map_of_ok hdispatch]
    rfl
  have hempty : History [] preparedSession := .start rfl rfl rfl rfl
  refine ⟨_, _, b, records.deployment, .call (.call hempty buildCall) (runCall b.id), ?_⟩
  rw [hrun]
  refine ⟨?_, hbuilds', hdeployments', hasked, hdownloads, hcode⟩
  rw [hids', hids]
  exact Supply.fresh_ofNat (by decide)

end Sample

/-- Not every deployment with a build that downloads code refers to a commit: the build can have
been asked for by its id from elsewhere. -/
theorem History.not_forall_codeReference : ¬ ∀ (past : List (PastCall Unit)) (s : Session Unit),
    History past s → s.world.ids.Fresh → ∀ r ∈ s.world.store.deployments,
      ∀ b ∈ s.world.store.builds, r.body.build = some b.id → b.body.downloadsCode = true →
        r.body.codeReference.isSome := by
  intro h
  obtain ⟨past, s, b, r, hhistory, hfresh, hbuilds, hdeployments, hbuild, hdownloads, hcode⟩ :=
    Sample.exists_history
  have hr : r ∈ s.world.store.deployments := by simp [hdeployments]
  have hb : b ∈ s.world.store.builds := by simp [hbuilds]
  have hsome := h past s hhistory hfresh r hr b hb hbuild hdownloads
  simp [hcode] at hsome

/-- That run is the one that has asked for the build by its id. -/
theorem Sample.codeReference_isSome_iff_run :
    ∃ (past : List (PastCall Unit)) (s : Session Unit) (r : Record DeploymentEntry)
      (b : Record Build), History past s ∧ s.world.ids.Fresh ∧ r ∈ s.world.store.deployments
      ∧ b ∈ s.world.store.builds ∧ r.body.build = some b.id ∧ b.body.downloadsCode = true
      ∧ ∃ call ∈ past, call.Records r ∧ ∃ p d spec, call.Deploys call.before p d spec
        ∧ (r.body.codeReference.isSome ↔ call.coordinator.Clean)
        ∧ (call.coordinator.Clean ∨ d.build = some b.id
          ∨ Digest.Collide (BuildRequirement.checksumText b.body.requirements true)
            (BuildRequirement.checksumText (call.coordinator.stack.requirements d) false)) := by
  obtain ⟨past, s, b, r, hhistory, hfresh, hbuilds, hdeployments, hbuild, hdownloads, -⟩ :=
    Sample.exists_history
  have hr : r ∈ s.world.store.deployments := by simp [hdeployments]
  have hb : b ∈ s.world.store.builds := by simp [hbuilds]
  exact ⟨past, s, r, b, hhistory, hfresh, hr, hb, hbuild, hdownloads,
    hhistory.codeReference_isSome_iff hfresh hr hb hbuild hdownloads⟩

end Pipework
