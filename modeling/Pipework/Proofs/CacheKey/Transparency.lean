import Pipework.Proofs.CacheKey.Computation
import Pipework.Proofs.Dict.Keys

/-!
# Remembered keys make no difference

An engine forgets its keys only when a step gets new inputs, so it still remembers what it has
computed in requests that failed. `Engine.answer_run` says that this cannot be told from its
answers: whatever it was asked before, it answers like an engine that knows the inputs that each
step got last and has not been asked anything.

A computation that skips remembered keys ends like one that does not, since what is skipped would
have succeeded (`compute_ok_of_isKeyOf`), also below the steps that wait at the time.
-/

namespace Pipework.CacheKey

variable {steps : Dict Inputs} {pipeline id k : String} {path : List String} {fuel : Nat}
  {memo memo' : Keys}

/-- A step that has a key does not depend on itself. -/
theorem IsKeyOf.not_dependsOn_self (h : IsKeyOf steps id k) :
    ¬ Relation.TransGen (DependsOn steps) id id := by
  induction h with
  | @digest id i key registered keys ih =>
    intro hcycle
    -- The cycle leads on to a dependency, which then is on a cycle as well.
    obtain ⟨d, ⟨j, hj, hd⟩, hback⟩ := Relation.TransGen.head'_iff.1 hcycle
    cases registered.symm.trans hj
    exact ih d hd (.tail' hback ⟨_, registered, hd⟩)

/-- What has a key can be computed wherever it is needed. -/
theorem compute_ok_of_isKeyOf (h : IsKeyOf steps id k) (hwaiting : Waiting steps path id)
    (hfuel : steps.size ≤ fuel + path.length) (memo : Keys) :
    (compute pipeline steps fuel path id memo).1 = .ok () := by
  induction h generalizing path fuel memo with
  | @digest id i key registered keys ih =>
    by_cases hk : memo.contains id = true
    · rw [compute_of_contains hk]
    have hp : id ∉ path := fun hmem =>
      (IsKeyOf.digest key registered keys).not_dependsOn_self (hwaiting.depends id hmem)
    have hlength := hwaiting.length_lt hp registered
    obtain ⟨fuel, rfl⟩ : ∃ n, fuel = n + 1 := ⟨fuel - 1, by omega⟩
    have heach : (each (compute pipeline steps fuel (id :: path)) i.dependencies memo).1
        = .ok () :=
      each_ok (fun d hd memo => ih d hd (hwaiting.cons hp registered hd) (by grind) memo) memo
    rcases heq : each (compute pipeline steps fuel (id :: path)) i.dependencies memo
      with ⟨result, memo'⟩
    rw [heq] at heach
    cases heach
    rw [compute_of_each_ok hk hp registered heq]

/-- Computations that end alike whatever is remembered also do so one after the other. -/
theorem each_fst_eq {f : String → Keys → Except Error Unit × Keys} (hf : Remembers steps f)
    {ids : List String}
    (halike : ∀ id ∈ ids, ∀ memo memo', Sound steps memo → Sound steps memo' →
      (f id memo).1 = (f id memo').1)
    (hsound : Sound steps memo) (hsound' : Sound steps memo') :
    (each f ids memo).1 = (each f ids memo').1 := by
  induction ids generalizing memo memo' with
  | nil => rfl
  | cons id ids ih =>
    have hid := halike id List.mem_cons_self memo memo' hsound hsound'
    have hafter := (hf id memo hsound).1.sound
    have hafter' := (hf id memo' hsound').1.sound
    rcases heq : f id memo with ⟨result, after⟩
    rcases heq' : f id memo' with ⟨result', after'⟩
    rw [heq, heq'] at hid
    rw [heq] at hafter
    rw [heq'] at hafter'
    obtain rfl : result = result' := hid
    simp only [each, heq, heq']
    cases result with
    | error cause => rfl
    | ok _ => exact ih (fun d hd => halike d (List.mem_cons_of_mem id hd)) hafter hafter'

/-- A computation ends in the same way whatever keys are remembered. -/
theorem compute_fst_eq (hsound : Sound steps memo) (hsound' : Sound steps memo')
    (hwaiting : Waiting steps path id) (hfuel : steps.size ≤ fuel + path.length) :
    (compute pipeline steps fuel path id memo).1
      = (compute pipeline steps fuel path id memo').1 := by
  induction fuel using Nat.strongRecOn generalizing path id memo memo' with
  | ind fuel ih =>
    by_cases hk : memo.contains id = true
    · obtain ⟨k, hk'⟩ := Option.isSome_iff_exists.1 hk
      rw [compute_of_contains hk, compute_ok_of_isKeyOf (hsound id k hk') hwaiting hfuel]
    by_cases hk' : memo'.contains id = true
    · obtain ⟨k, hk⟩ := Option.isSome_iff_exists.1 hk'
      rw [compute_of_contains hk', compute_ok_of_isKeyOf (hsound' id k hk) hwaiting hfuel]
    by_cases hp : id ∈ path
    · rw [compute_of_mem hk hp, compute_of_mem hk' hp]
    cases hi : steps.get? id with
    | none => rw [compute_of_unknown hk hp hi, compute_of_unknown hk' hp hi]
    | some i =>
      have hlength := hwaiting.length_lt hp hi
      obtain ⟨fuel, rfl⟩ : ∃ n, fuel = n + 1 := ⟨fuel - 1, by omega⟩
      have heach := each_fst_eq (compute_remembers pipeline fuel (id :: path))
        (fun d hd _ _ hs hs' =>
          ih fuel (by omega) hs hs' (hwaiting.cons hp hi hd) (by grind)) hsound hsound'
      cases hended : (each (compute pipeline steps fuel (id :: path)) i.dependencies memo).1 with
      | error cause =>
        rw [compute_of_each_error hk hp hi (Prod.ext hended rfl),
          compute_of_each_error hk' hp hi (Prod.ext (heach.symm.trans hended) rfl)]
      | ok _ =>
        rw [compute_of_each_ok hk hp hi (Prod.ext hended rfl),
          compute_of_each_ok hk' hp hi (Prod.ext (heach.symm.trans hended) rfl)]

/-- Nothing waits at the start. -/
theorem waiting_nil (id : String) : Waiting steps [] id := ⟨.nil, nofun, nofun⟩

namespace Engine

theorem key_fst (e : Engine) (id : String) :
    (e.key id).1 = (compute e.pipeline e.steps e.steps.size [] id e.keys).1.map fun _ =>
      ((e.key id).2.keys.get? id).getD "" := by
  rw [key]
  split <;> simp_all [Except.map]

theorem allKeys_fst (e : Engine) :
    e.allKeys.1 = (each (compute e.pipeline e.steps e.steps.size []) e.steps.keys e.keys).1.map
      fun _ => e.steps.mapWithKey fun id _ => (e.allKeys.2.keys.get? id).getD "" := by
  rw [allKeys]
  split <;> simp_all [Except.map]

variable {e e' : Engine}

/-- The key of a step does not depend on the keys that are remembered. -/
theorem key_fst_eq (hpipeline : e'.pipeline = e.pipeline) (hsteps : e'.steps = e.steps)
    (hsound : Sound e.steps e.keys) (hsound' : Sound e.steps e'.keys) (id : String) :
    (e'.key id).1 = (e.key id).1 := by
  have hfst : (compute e.pipeline e.steps e.steps.size [] id e'.keys).1 = _ :=
    compute_fst_eq hsound' hsound (waiting_nil id) (Nat.le_refl _)
  obtain ⟨hgrows, hget⟩ := compute_remembers e.pipeline e.steps.size [] id e.keys hsound
  obtain ⟨hgrows', hget'⟩ := compute_remembers e.pipeline e.steps.size [] id e'.keys hsound'
  simp only [key_fst, key_snd, hpipeline, hsteps, hfst]
  cases hended : (compute e.pipeline e.steps e.steps.size [] id e.keys).1 with
  | error cause => rfl
  | ok _ =>
    obtain ⟨k, hk⟩ := hget hended
    obtain ⟨k', hk'⟩ := hget' (hfst.trans hended)
    have hsame : k' = k := (hgrows'.sound id k' hk').unique (hgrows.sound id k hk)
    simp only [hk, hk', hsame]

/-- The keys of all steps do not depend on the keys that are remembered. -/
theorem allKeys_fst_eq (hpipeline : e'.pipeline = e.pipeline) (hsteps : e'.steps = e.steps)
    (hsound : Sound e.steps e.keys) (hsound' : Sound e.steps e'.keys) :
    e'.allKeys.1 = e.allKeys.1 := by
  have hremembers : Remembers e.steps (compute e.pipeline e.steps e.steps.size []) :=
    compute_remembers _ _ _
  have hfst : (each (compute e.pipeline e.steps e.steps.size []) e.steps.keys e'.keys).1
      = (each (compute e.pipeline e.steps e.steps.size []) e.steps.keys e.keys).1 :=
    each_fst_eq hremembers
      (fun id _ _ _ hs hs' => compute_fst_eq hs hs' (waiting_nil id) (Nat.le_refl _)) hsound' hsound
  obtain ⟨hgrows, hget⟩ := hremembers.each e.steps.keys hsound
  obtain ⟨hgrows', hget'⟩ := hremembers.each e.steps.keys hsound'
  simp only [allKeys_fst, allKeys_snd, hpipeline, hsteps, hfst]
  cases hended : (each (compute e.pipeline e.steps e.steps.size []) e.steps.keys e.keys).1 with
  | error cause => rfl
  | ok _ =>
    refine congrArg Except.ok (Dict.ext_entries (List.map_congr_left fun entry hentry => ?_))
    have hid : entry.1 ∈ e.steps.keys := List.mem_map_of_mem hentry
    obtain ⟨k, hk⟩ := hget hended _ hid
    obtain ⟨k', hk'⟩ := hget' (hfst.trans hended) _ hid
    have hsame : k' = k := (hgrows'.sound _ k' hk').unique (hgrows.sound _ k hk)
    simp only [hk, hk', hsame]

end Engine

/-! ## Engines in use -/

/-- What an engine can be asked. -/
inductive Query where
  | key (id : String)
  | allKeys

inductive Answer where
  | key (result : Except Error String)
  | allKeys (result : Except Error Keys)

/-- What is done with an engine. -/
inductive Operation where
  /-- Gives a step new inputs. -/
  | insert (id : String) (inputs : Inputs)
  | ask (query : Query)

/-- The inputs that a step has got last. -/
def latest? (operations : List Operation) (id : String) : Option Inputs :=
  operations.reverse.findSome? fun
    | .insert step inputs => if step = id then some inputs else none
    | .ask _ => none

namespace Engine

/-- What an engine answers, and the engine afterwards. -/
def answer (e : Engine) : Query → Answer × Engine
  | .key id => (.key (e.key id).1, (e.key id).2)
  | .allKeys => (.allKeys e.allKeys.1, e.allKeys.2)

def perform (e : Engine) : Operation → Engine
  | .insert id inputs => e.insert id inputs
  | .ask query => (e.answer query).2

/-- The engine after several operations. -/
def run (e : Engine) (operations : List Operation) : Engine := operations.foldl perform e

/-- A new engine that knows the inputs of several steps. -/
def ofInputs (pipeline : String) (inputs : List (String × Inputs)) : Engine :=
  inputs.foldl (fun e entry => e.insert entry.1 entry.2) { pipeline }

variable {e : Engine}

theorem Reachable.perform (h : e.Reachable) (operation : Operation) :
    (e.perform operation).Reachable := by
  cases operation with
  | insert id inputs => exact h.insert id inputs
  | ask query =>
    cases query with
    | key id => exact h.key id
    | allKeys => exact h.allKeys

theorem Reachable.run (h : e.Reachable) (operations : List Operation) :
    (e.run operations).Reachable := by
  induction operations generalizing e with
  | nil => exact h
  | cons operation operations ih => exact ih (h.perform operation)

@[simp] theorem pipeline_run (e : Engine) (operations : List Operation) :
    (e.run operations).pipeline = e.pipeline := by
  induction operations generalizing e with
  | nil => rfl
  | cons operation operations ih =>
    refine (ih (e.perform operation)).trans ?_
    rcases operation with ⟨id, inputs⟩ | (id | _)
    · rfl
    · exact congrArg (·.pipeline) (e.key_snd id)
    · exact congrArg (·.pipeline) e.allKeys_snd

/-- An engine knows the inputs that each step has got last, and no others. -/
theorem get?_steps_run (operations : List Operation) (id : String) :
    (run { pipeline } operations).steps.get? id = latest? operations id := by
  induction operations using List.reverseRecOn with
  | nil => rfl
  | append_singleton operations operation ih =>
    simp only [run, latest?, List.foldl_append, List.foldl_cons, List.foldl_nil,
      List.reverse_append, List.reverse_singleton, List.singleton_append] at ih ⊢
    rcases operation with ⟨step, inputs⟩ | (step | _)
    · simp only [perform, insert, Dict.get?_insert, List.findSome?_cons, ih]
      split <;> rfl
    · simp only [perform, answer, key_snd, List.findSome?_cons, ih]
    · simp only [perform, answer, allKeys_snd, List.findSome?_cons, ih]

theorem ofInputs_eq (pipeline : String) (inputs : List (String × Inputs)) :
    ofInputs pipeline inputs = { pipeline, steps := .ofList inputs } := by
  have hinsert : ∀ e : Engine, e.keys = .empty →
      inputs.foldl (fun e entry => e.insert entry.1 entry.2) e
        = { e with steps := e.steps.insertMany inputs } := by
    induction inputs with
    | nil => exact fun _ _ => rfl
    | cons entry inputs ih =>
      intro e he
      rw [List.foldl_cons, ih _ rfl, Engine.insert, ← he]
      rfl
  exact hinsert { pipeline } rfl

/-- Whatever has been done with an engine before, it answers like a new one that was given the
inputs which each step has got last, in any order. -/
theorem answer_run (pipeline : String) (operations : List Operation)
    {inputs : List (String × Inputs)} (distinct : (inputs.map (·.1)).Nodup)
    (latest : ∀ id i, (id, i) ∈ inputs ↔ latest? operations id = some i) (query : Query) :
    ((run { pipeline } operations).answer query).1
      = ((ofInputs pipeline inputs).answer query).1 := by
  have hsteps : (run { pipeline } operations).steps = (ofInputs pipeline inputs).steps := by
    refine Dict.ext_get? fun id => Option.ext fun i => ?_
    rw [get?_steps_run, ofInputs_eq, Dict.get?_ofList_eq_some_iff distinct, latest]
  have hpipeline : (run { pipeline } operations).pipeline = (ofInputs pipeline inputs).pipeline := by
    rw [pipeline_run, ofInputs_eq]
  have hfresh : Sound (ofInputs pipeline inputs).steps (ofInputs pipeline inputs).keys := by
    rw [ofInputs_eq]
    exact sound_empty
  have hsound := ((Reachable.new pipeline).run operations).sound
  rw [hsteps] at hsound
  cases query with
  | key id => exact congrArg Answer.key (key_fst_eq hpipeline hsteps hfresh hsound id)
  | allKeys => exact congrArg Answer.allKeys (allKeys_fst_eq hpipeline hsteps hfresh hsound)

/-- First a step depends on an unknown one, then it is part of a cycle, until the other one gets new
inputs. The key that it has in the end is that of an engine which has seen none of this. -/
theorem answer_run_repaired :
    ∃ (a b : Inputs) (operations : List Operation),
      operations = [.insert "a" a, .ask (.key "a"), .insert "b" b, .ask .allKeys, .insert "b" {}]
      ∧ ((run { pipeline := "p" } (operations.take 1)).answer (.key "a")).1
        = .key (.error (unknownStep "p" "b"))
      ∧ ((run { pipeline := "p" } (operations.take 3)).answer .allKeys).1
        = .allKeys (.error (cycle "p" "a"))
      ∧ ((run { pipeline := "p" } operations).answer (.key "a")).1
        = ((ofInputs "p" [("b", {}), ("a", a)]).answer (.key "a")).1 := by
  refine ⟨{ predecessors := .ofList ["b"] }, { predecessors := .ofList ["a"] }, _, rfl, rfl, rfl,
    answer_run "p" _ (by decide) (fun id i => ?_) (.key "a")⟩
  by_cases hb : "b" = id
  · subst hb
    simp [latest?, eq_comm]
  · by_cases ha : "a" = id
    · subst ha
      simp [latest?, eq_comm]
    · simp [latest?, hb, ha, Ne.symm hb, Ne.symm ha]

end Engine

end Pipework.CacheKey
