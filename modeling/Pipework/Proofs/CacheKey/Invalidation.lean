import Pipework.Proofs.CacheKey.Computation

/-!
# Invalidation

When one step is edited, the keys of the steps that depend on it change and no others. The keys of
the others are the same because nothing that goes into them has changed. A step that depends on the
edited one gets a new key for some dependency, in a message that is otherwise put together at the
same places as before, so the message changes, and with it the digest unless two messages collide.
-/

namespace Pipework.CacheKey

/-- A step in which one field that does not say what it depends on has another value. -/
inductive Inputs.Edit (i : Inputs) : Inputs → Prop where
  | source (source : String) (ne : source ≠ i.source) : Edit i { i with source }
  | sourceCode (sourceCode : String) (ne : sourceCode ≠ i.sourceCode) : Edit i { i with sourceCode }
  | parameters (parameters : Dict Json)
      (ne : (Json.ofDict parameters).compact ≠ i.parameterText) : Edit i { i with parameters }
  | cacheEnabled (cacheEnabled : Bool) (ne : cacheEnabled ≠ i.cacheEnabled) :
      Edit i { i with cacheEnabled }

/-- The same steps but for an edit of one of them. -/
structure Edited (s t : Dict Inputs) (u : String) : Prop where
  edit : ∃ i j, s.get? u = some i ∧ t.get? u = some j ∧ i.Edit j
  others : ∀ id, id ≠ u → t.get? id = s.get? id

/-- The messages that are digested for the keys of the steps. -/
def Digests (steps : Dict Inputs) (message : String) : Prop :=
  ∃ id i key, steps.get? id = some i ∧ (∀ d ∈ i.dependencies, IsKeyOf steps d (key d))
    ∧ message = i.message key

/-- No message for one set of steps has the digest of another message for the other set. -/
def CollisionFree (s t : Dict Inputs) : Prop :=
  ∀ m n, Digests s m → Digests t n → Digest.sha256Hex m = Digest.sha256Hex n → m = n

namespace Inputs

variable {i j : Inputs} {k l : String → String}

theorem Edit.dependencies_eq (h : i.Edit j) : j.dependencies = i.dependencies := by
  cases h <;> rfl

/-- An edit changes the message if the keys stay the same. -/
theorem Edit.message_ne (h : i.Edit j) (hk : i.Keyed k) : i.message k ≠ j.message k := by
  intro hm
  have hj : j.Keyed k := fun d hd => hk d (h.dependencies_eq ▸ hd)
  obtain ⟨hhead, htail⟩ := message_inj hk hj hm
  cases h with
  | source source ne =>
    simp only [head, artifactFields, String.append_left_inj] at hhead
    exact ne hhead.symm
  | sourceCode sourceCode ne =>
    simp only [head, artifactFields, String.append_left_inj, String.append_right_inj] at hhead
    exact ne hhead.symm
  | parameters parameters ne => exact ne (parameterText_inj.2 htail.parameters).symm
  | cacheEnabled cacheEnabled ne => exact ne htail.cacheEnabled.symm

/-- The message of a step shows the keys of all its dependencies. -/
theorem key_eq_of_message (hk : i.Keyed k) (hl : i.Keyed l) (h : i.message k = i.message l)
    {d : String} (hd : d ∈ i.dependencies) : k d = l d := by
  obtain ⟨hhead, htail⟩ := message_inj hk hl h
  rcases List.mem_append.1 hd with hd | hd
  · exact List.map_inj_left.1 htail.predecessors d hd
  · obtain ⟨e, he, rfl⟩ := List.mem_map.1 hd
    obtain ⟨entry, hentry, rfl⟩ := List.mem_map.1 he
    have hfields := (sameHead_of_layout hk hl rfl hhead).artifacts
    exact congrArg (·.2.1) (List.map_inj_left.1 hfields entry hentry)

end Inputs

variable {s t : Dict Inputs} {u id : String} {k l : String}

theorem Edited.dependsOn_eq (h : Edited s t u) : DependsOn t = DependsOn s := by
  funext a b
  apply propext
  by_cases ha : a = u
  · subst ha
    obtain ⟨i, j, hi, hj, hedit⟩ := h.edit
    simp [DependsOn, hi, hj, hedit.dependencies_eq]
  · simp [DependsOn, h.others a ha]

/-- Editing a step registers none and removes none. -/
theorem Edited.exists_get? (h : Edited s t u) {i : Inputs} (hi : s.get? id = some i) :
    ∃ j, t.get? id = some j := by
  by_cases hid : id = u
  · obtain ⟨_, j, _, hj, _⟩ := h.edit
    exact ⟨j, hid ▸ hj⟩
  · exact ⟨i, (h.others id hid).trans hi⟩

/-- The key of a step that does not depend on the edited one is its key after the edit. -/
theorem IsKeyOf.of_not_dependsOn (hk : IsKeyOf s id k) (edited : Edited s t u)
    (h : ¬ Relation.ReflTransGen (DependsOn s) id u) : IsKeyOf t id k := by
  induction hk with
  | @digest id i key registered keys ih =>
    have hid : id ≠ u := by
      rintro rfl
      exact h .refl
    refine .digest key ((edited.others id hid).trans registered) fun d hd => ih d hd fun hu => ?_
    exact h (.head ⟨i, registered, hd⟩ hu)

/-- The dependencies of the edited step do not depend on it, so they keep their keys. -/
theorem Edited.key_eq (edited : Edited s t u) (acyclic : Acyclic s) {i : Inputs}
    (hi : s.get? u = some i) (hd : id ∈ i.dependencies) (hk : IsKeyOf s id k)
    (hl : IsKeyOf t id l) : k = l := by
  refine (hk.of_not_dependsOn edited fun hu => ?_).unique hl
  exact acyclic u (.head' ⟨i, hi, hd⟩ hu)

/-- The key of a step that depends on the edited one is not its key after the edit. -/
theorem IsKeyOf.ne_of_dependsOn (hk : IsKeyOf s id k) (hl : IsKeyOf t id l) (acyclic : Acyclic s)
    (edited : Edited s t u) (free : CollisionFree s t)
    (h : Relation.ReflTransGen (DependsOn s) id u) : k ≠ l := by
  induction hk generalizing l with
  | @digest id i key registered keys ih =>
    cases hl with
    | @digest _ j key' registered' keys' =>
      intro hkey
      have hmessage := free _ _ ⟨id, i, key, registered, keys, rfl⟩
        ⟨id, j, key', registered', keys', rfl⟩ hkey
      have hi : i.Keyed key := fun d hd => (keys d hd).isKey
      by_cases hid : id = u
      · subst hid
        obtain ⟨i', j', hi', hj', hedit⟩ := edited.edit
        cases registered.symm.trans hi'
        cases registered'.symm.trans hj'
        have hsame : ∀ d ∈ j.dependencies, key d = key' d := by
          intro d hd
          have hd' : d ∈ i.dependencies := hedit.dependencies_eq ▸ hd
          exact edited.key_eq acyclic registered hd' (keys d hd') (keys' d hd)
        rw [← Inputs.message_congr_key j hsame] at hmessage
        exact hedit.message_ne hi hmessage
      · cases registered.symm.trans ((edited.others id hid).symm.trans registered')
        rcases h.cases_head with rfl | ⟨d, ⟨i', hi', hd⟩, hdu⟩
        · exact hid rfl
        · cases registered.symm.trans hi'
          have hj : i.Keyed key' := fun d hd => (keys' d hd).isKey
          exact ih d hd (keys' d hd) hdu (Inputs.key_eq_of_message hi hj hmessage hd)

/-- Of two engines whose steps differ by an edit of one step, both give the key of every step, the
same one if the step does not depend on the edited step and another one if it does. -/
theorem Engine.key_edited {e e' : Engine} (he : e.Reachable) (he' : e'.Reachable)
    (acyclic : Acyclic e.steps) (closed : Closed e.steps) (edited : Edited e.steps e'.steps u)
    {i : Inputs} (hi : e.steps.get? id = some i) :
    ∃ k l, (e.key id).1 = .ok k ∧ (e'.key id).1 = .ok l
      ∧ (¬ Relation.ReflTransGen (DependsOn e.steps) id u → k = l)
      ∧ (Relation.ReflTransGen (DependsOn e.steps) id u → CollisionFree e.steps e'.steps →
        k ≠ l) := by
  have acyclic' : Acyclic e'.steps := by
    rw [Acyclic, edited.dependsOn_eq]
    exact acyclic
  have closed' : Closed e'.steps := by
    intro a b hab
    rw [edited.dependsOn_eq] at hab
    obtain ⟨j, hj⟩ := closed a b hab
    exact edited.exists_get? hj
  obtain ⟨j, hj⟩ := edited.exists_get? hi
  obtain ⟨k, hk, keyOf⟩ := he.key_ok acyclic closed hi
  obtain ⟨l, hl, keyOf'⟩ := he'.key_ok acyclic' closed' hj
  refine ⟨k, l, hk, hl, fun hu => ?_, fun hu free => ?_⟩
  · exact (keyOf.of_not_dependsOn edited hu).unique keyOf'
  · exact keyOf.ne_of_dependsOn keyOf' acyclic edited free hu

section Training

variable (code : String)

/-- A step without dependencies. -/
def loader : Inputs := { source := "load", sourceCode := code }

/-- A step that is fed by the loader. -/
def trainer : Inputs :=
  { source := "train", artifacts := Dict.empty.insert "data" ("loader", "out") }

/-- An engine for the two steps. -/
def trainingEngine : Engine :=
  (({ pipeline := "training" } : Engine).insert "loader" (loader code)).insert "trainer" trainer

theorem reachable_trainingEngine : (trainingEngine code).Reachable :=
  .insert (.insert (.new _) _ _) _ _

theorem get?_trainingEngine (id : String) :
    (trainingEngine code).steps.get? id = if "trainer" = id then some trainer
      else if "loader" = id then some (loader code) else none := by
  simp [trainingEngine, Engine.insert, Dict.get?_insert]

theorem dependsOn_trainingEngine {a b : String}
    (h : DependsOn (trainingEngine code).steps a b) : a = "trainer" ∧ b = "loader" := by
  obtain ⟨i, hi, hb⟩ := h
  rw [get?_trainingEngine] at hi
  split at hi
  · rename_i ha
    cases hi
    exact ⟨ha.symm, List.mem_singleton.1 hb⟩
  · split at hi
    · cases hi
      exact absurd hb List.not_mem_nil
    · cases hi

theorem acyclic_trainingEngine : Acyclic (trainingEngine code).steps := by
  have hdepends : ∀ {a b}, Relation.TransGen (DependsOn (trainingEngine code).steps) a b →
      a = "trainer" ∧ b = "loader" := by
    intro a b h
    induction h with
    | single h => exact dependsOn_trainingEngine code h
    | tail _ h ih => exact ⟨ih.1, (dependsOn_trainingEngine code h).2⟩
  intro a h
  obtain ⟨htrainer, hloader⟩ := hdepends h
  exact absurd (htrainer.symm.trans hloader) (by decide)

theorem closed_trainingEngine : Closed (trainingEngine code).steps := by
  intro a b h
  refine ⟨loader code, ?_⟩
  rw [(dependsOn_trainingEngine code h).2, get?_trainingEngine]
  rfl

theorem digests_trainingEngine {message : String}
    (h : Digests (trainingEngine code).steps message) :
    message = (loader code).message (fun _ => "")
    ∨ message = trainer.message fun _ => Digest.sha256Hex ((loader code).message fun _ => "") := by
  obtain ⟨name, i, key, hi, keys, rfl⟩ := h
  rw [get?_trainingEngine] at hi
  split at hi
  · cases hi
    refine .inr (Inputs.message_congr_key _ fun d hd => ?_)
    obtain rfl := List.mem_singleton.1 hd
    exact (keys _ hd).unique (.digest (fun _ => "") (by rw [get?_trainingEngine]; rfl)
      fun _ hd => absurd hd List.not_mem_nil)
  · split at hi
    · cases hi
      exact .inl rfl
    · cases hi

end Training

theorem collisionFree_trainingEngine :
    CollisionFree (trainingEngine "v1").steps (trainingEngine "v2").steps := by
  have hloader : Digest.sha256Hex ((loader "v1").message fun _ => "")
      = "8d706f6b98e76670f1352561755401a361e96323c1c376e7b5d3063129ed166e" := by decide +kernel
  have hloader' : Digest.sha256Hex ((loader "v2").message fun _ => "")
      = "24dd1b19663cd3c2a8d020a5ac7e1a0a6334d159002d495dcc9e67673eaa1a7e" := by decide +kernel
  have htrainer : Digest.sha256Hex (trainer.message fun _ =>
      "8d706f6b98e76670f1352561755401a361e96323c1c376e7b5d3063129ed166e")
      = "0cc580d72142ad365cc69fc1d6c6acbf18d0a31b70883fa0cef4807f860bcab0" := by decide +kernel
  have htrainer' : Digest.sha256Hex (trainer.message fun _ =>
      "24dd1b19663cd3c2a8d020a5ac7e1a0a6334d159002d495dcc9e67673eaa1a7e")
      = "609e25c514b64b8b3c7d4805a2806ec35d7614fdd2cab54eeaa71ba9f5c22954" := by decide +kernel
  intro m n hm hn heq
  rcases digests_trainingEngine "v1" hm with rfl | rfl <;>
    rcases digests_trainingEngine "v2" hn with rfl | rfl <;>
    simp only [hloader, hloader', htrainer, htrainer'] at heq <;>
    exact absurd heq (by decide)

/-- Another source text of the loader makes for another key of the trainer. -/
theorem key_edited_trainer :
    ∃ k l, ((trainingEngine "v1").key "trainer").1 = .ok k
      ∧ ((trainingEngine "v2").key "trainer").1 = .ok l ∧ k ≠ l := by
  have edited : Edited (trainingEngine "v1").steps (trainingEngine "v2").steps "loader" := by
    refine ⟨⟨loader "v1", loader "v2", by rw [get?_trainingEngine]; rfl,
      by rw [get?_trainingEngine]; rfl, .sourceCode "v2" (by decide)⟩, fun name hname => ?_⟩
    rw [get?_trainingEngine, get?_trainingEngine, if_neg hname.symm, if_neg hname.symm]
  have registered : (trainingEngine "v1").steps.get? "trainer" = some trainer := by
    rw [get?_trainingEngine]
    rfl
  have depends : DependsOn (trainingEngine "v1").steps "trainer" "loader" :=
    ⟨trainer, registered, List.mem_singleton_self _⟩
  obtain ⟨k, l, hk, hl, -, hne⟩ := Engine.key_edited (reachable_trainingEngine "v1")
    (reachable_trainingEngine "v2") (acyclic_trainingEngine "v1") (closed_trainingEngine "v1")
    edited registered
  exact ⟨k, l, hk, hl, hne (.single depends) collisionFree_trainingEngine⟩

end Pipework.CacheKey
