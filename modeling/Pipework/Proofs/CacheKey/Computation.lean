import Mathlib.Data.List.Perm.Subperm
import Mathlib.Logic.Relation
import Pipework.Proofs.CacheKey.Message

/-!
# The computation of cache keys

`IsKeyOf` says what the key of a step is, whatever is remembered and in whatever order keys are
asked for. The computation only ever remembers such keys (`compute_remembers`), and where no step
depends on itself and every dependency is registered it comes to an end with the key
(`Engine.Reachable.key_ok`).
-/

namespace Pipework.CacheKey

/-- The key of a step is the digest of its message with the keys of the steps it depends on. -/
inductive IsKeyOf (steps : Dict Inputs) : String → String → Prop where
  | digest {id : String} {i : Inputs} (key : String → String) (registered : steps.get? id = some i)
      (keys : ∀ d ∈ i.dependencies, IsKeyOf steps d (key d)) :
      IsKeyOf steps id (Digest.sha256Hex (i.message key))

/-- One step depends directly on another. -/
def DependsOn (steps : Dict Inputs) (a b : String) : Prop :=
  ∃ i, steps.get? a = some i ∧ b ∈ i.dependencies

/-- No step depends on itself, be it through others. -/
def Acyclic (steps : Dict Inputs) : Prop := ∀ a, ¬ Relation.TransGen (DependsOn steps) a a

/-- All dependencies are steps. -/
def Closed (steps : Dict Inputs) : Prop :=
  ∀ a b, DependsOn steps a b → ∃ i, steps.get? b = some i

variable {steps : Dict Inputs} {id : String} {k l : String}

theorem IsKeyOf.isKey (h : IsKeyOf steps id k) : IsKey k := by
  cases h
  exact ⟨_, rfl⟩

/-- Only the keys of the dependencies go into a message. -/
theorem Inputs.message_congr_key (i : Inputs) {key key' : String → String}
    (h : ∀ d ∈ i.dependencies, key d = key' d) : i.message key = i.message key' := by
  have hartifacts : i.artifactFields key = i.artifactFields key' := by
    refine List.map_congr_left fun e he => ?_
    have hmem : e.2.1 ∈ i.dependencies :=
      List.mem_append_right _ (List.mem_map.2 ⟨_, List.mem_map.2 ⟨e, he, rfl⟩, rfl⟩)
    simp only [h _ hmem]
  refine message_congr (head_congr ⟨rfl, rfl, hartifacts, rfl⟩) ⟨rfl, ?_, rfl⟩
  exact List.map_congr_left fun d hd => h d (List.mem_append_left _ hd)

/-- A step has no more than one key. -/
theorem IsKeyOf.unique (hk : IsKeyOf steps id k) (hl : IsKeyOf steps id l) : k = l := by
  induction hk generalizing l with
  | digest key registered keys ih =>
    cases hl with
    | digest key' registered' keys' =>
      cases registered.symm.trans registered'
      rw [Inputs.message_congr_key _ fun d hd => ih d hd (keys' d hd)]

/-- All keys that are remembered are keys of their steps. -/
def Sound (steps : Dict Inputs) (keys : Keys) : Prop :=
  ∀ id k, keys.get? id = some k → IsKeyOf steps id k

theorem sound_empty : Sound steps .empty := by
  intro id k h
  cases h

/-- Keys are remembered, and those that come to them are keys of their steps. -/
structure Grows (steps : Dict Inputs) (keys keys' : Keys) : Prop where
  sound : Sound steps keys'
  keeps : ∀ id k, keys.get? id = some k → keys'.get? id = some k

theorem Grows.refl {keys : Keys} (h : Sound steps keys) : Grows steps keys keys :=
  ⟨h, fun _ _ hk => hk⟩

theorem Grows.trans {keys keys' keys'' : Keys} (h : Grows steps keys keys')
    (h' : Grows steps keys' keys'') : Grows steps keys keys'' :=
  ⟨h'.sound, fun id k hk => h'.keeps id k (h.keeps id k hk)⟩

theorem Grows.insert {keys : Keys} (h : Sound steps keys) (hk : IsKeyOf steps id k) :
    Grows steps keys (keys.insert id k) := by
  refine ⟨fun x l hx => ?_, fun x l hx => ?_⟩ <;> rw [Dict.get?_insert] at *
  · split at hx
    · rename_i heq
      cases heq
      cases hx
      exact hk
    · exact h x l hx
  · split
    · rename_i heq
      cases heq
      rw [hk.unique (h id l hx)]
    · exact hx

/-- A computation that remembers keys, and on success remembers the one it is for. -/
def Remembers (steps : Dict Inputs) (f : String → Keys → Except Error Unit × Keys) : Prop :=
  ∀ id keys, Sound steps keys → Grows steps keys (f id keys).2
    ∧ ((f id keys).1 = .ok () → ∃ k, (f id keys).2.get? id = some k)

theorem Remembers.each {f : String → Keys → Except Error Unit × Keys} (hf : Remembers steps f)
    (ids : List String) {keys : Keys} (h : Sound steps keys) :
    Grows steps keys (each f ids keys).2
    ∧ ((each f ids keys).1 = .ok () → ∀ id ∈ ids, ∃ k, (each f ids keys).2.get? id = some k) := by
  induction ids generalizing keys with
  | nil => exact ⟨.refl h, fun _ _ hid => absurd hid List.not_mem_nil⟩
  | cons id ids ih =>
    obtain ⟨hgrows, hget⟩ := hf id keys h
    simp only [CacheKey.each]
    split
    · rename_i keys' heq
      rw [heq] at hgrows hget
      obtain ⟨hgrows', hget'⟩ := ih hgrows.sound
      refine ⟨hgrows.trans hgrows', fun hok d hd => ?_⟩
      rcases List.mem_cons.1 hd with rfl | hd
      · obtain ⟨k, hk⟩ := hget rfl
        exact ⟨k, hgrows'.keeps _ _ hk⟩
      · exact hget' hok d hd
    · rename_i hfailed
      exact ⟨hgrows, fun hok => (hfailed _ (Prod.ext hok rfl)).elim⟩

section Compute

variable {pipeline : String} {fuel : Nat} {path : List String} {keys keys' : Keys} {i : Inputs}

theorem compute_of_contains (h : keys.contains id = true) :
    compute pipeline steps fuel path id keys = (.ok (), keys) := by
  unfold compute
  rw [if_pos h]

theorem compute_of_mem (h : ¬ keys.contains id = true) (hp : id ∈ path) :
    compute pipeline steps fuel path id keys = (.error (cycle pipeline id), keys) := by
  unfold compute
  rw [if_neg h, if_pos (List.contains_iff_mem.2 hp)]

variable (h : ¬ keys.contains id = true) (hp : id ∉ path)
include h hp

theorem compute_of_unknown (hi : steps.get? id = none) :
    compute pipeline steps fuel path id keys = (.error (unknownStep pipeline id), keys) := by
  unfold compute
  rw [if_neg h, if_neg (mt List.contains_iff_mem.1 hp)]
  simp only [hi]

variable (hi : steps.get? id = some i)
include hi

theorem compute_zero :
    compute pipeline steps 0 path id keys = (.error (cycle pipeline id), keys) := by
  unfold compute
  rw [if_neg h, if_neg (mt List.contains_iff_mem.1 hp)]
  simp only [hi]

theorem compute_of_each_ok
    (heach : each (compute pipeline steps fuel (id :: path)) i.dependencies keys
      = (.ok (), keys')) :
    compute pipeline steps (fuel + 1) path id keys = (.ok (), keys'.insert id
      (Digest.sha256Hex (i.message fun d => (keys'.get? d).getD ""))) := by
  unfold compute
  rw [if_neg h, if_neg (mt List.contains_iff_mem.1 hp)]
  simp only [hi, heach]

theorem compute_of_each_error {cause : Error}
    (heach : each (compute pipeline steps fuel (id :: path)) i.dependencies keys
      = (.error cause, keys')) :
    compute pipeline steps (fuel + 1) path id keys = (.error cause, keys') := by
  unfold compute
  rw [if_neg h, if_neg (mt List.contains_iff_mem.1 hp)]
  simp only [hi, heach]

end Compute

theorem compute_remembers (pipeline : String) (fuel : Nat) (path : List String) :
    Remembers steps (compute pipeline steps fuel path) := by
  induction fuel using Nat.strongRecOn generalizing path with
  | ind fuel ih =>
    intro id keys h
    by_cases hk : keys.contains id = true
    · rw [compute_of_contains hk]
      exact ⟨.refl h, fun _ => Option.isSome_iff_exists.1 hk⟩
    by_cases hp : id ∈ path
    · rw [compute_of_mem hk hp]
      exact ⟨.refl h, fun hok => by cases hok⟩
    cases hi : steps.get? id with
    | none =>
      rw [compute_of_unknown hk hp hi]
      exact ⟨.refl h, fun hok => by cases hok⟩
    | some i =>
      cases fuel with
      | zero =>
        rw [compute_zero hk hp hi]
        exact ⟨.refl h, fun hok => by cases hok⟩
      | succ fuel =>
        obtain ⟨hgrows, hget⟩ := (ih fuel (by omega) (id :: path)).each i.dependencies h
        rcases heach : each (compute pipeline steps fuel (id :: path)) i.dependencies keys
          with ⟨cause | _, keys'⟩ <;> rw [heach] at hgrows hget
        · rw [compute_of_each_error hk hp hi heach]
          exact ⟨hgrows, fun hok => by cases hok⟩
        · rw [compute_of_each_ok hk hp hi heach]
          have hkeys : ∀ d ∈ i.dependencies, IsKeyOf steps d ((keys'.get? d).getD "") := by
            intro d hd
            obtain ⟨k, hk⟩ := hget rfl d hd
            rw [hk]
            exact hgrows.sound d k hk
          refine ⟨hgrows.trans (.insert hgrows.sound (.digest _ hi hkeys)), fun _ => ?_⟩
          exact ⟨_, by rw [Dict.get?_insert, if_pos rfl]⟩

theorem each_ok {f : String → Keys → Except Error Unit × Keys} {ids : List String}
    (hf : ∀ id ∈ ids, ∀ keys, (f id keys).1 = .ok ()) (keys : Keys) :
    (each f ids keys).1 = .ok () := by
  induction ids generalizing keys with
  | nil => rfl
  | cons id ids ih =>
    have hid := hf id List.mem_cons_self keys
    rcases heq : f id keys with ⟨result, keys'⟩
    rw [heq] at hid
    cases hid
    rw [each, heq]
    exact ih (fun d hd => hf d (List.mem_cons_of_mem id hd)) keys'

/-- The steps that wait for a key: each depends on it, and none waits twice. -/
structure Waiting (steps : Dict Inputs) (path : List String) (id : String) : Prop where
  nodup : path.Nodup
  registered : ∀ a ∈ path, a ∈ steps.keys
  depends : ∀ a ∈ path, Relation.TransGen (DependsOn steps) a id

theorem mem_keys_of_get? {i : Inputs} (h : steps.get? id = some i) : id ∈ steps.keys :=
  List.mem_map.2 ⟨(id, i), Dict.mem_entries_iff.2 h, rfl⟩

theorem Waiting.cons {path : List String} (h : Waiting steps path id) (hp : id ∉ path) {i : Inputs}
    (hi : steps.get? id = some i) {d : String} (hd : d ∈ i.dependencies) :
    Waiting steps (id :: path) d where
  nodup := List.nodup_cons.2 ⟨hp, h.nodup⟩
  registered a ha := by
    rcases List.mem_cons.1 ha with rfl | ha
    · exact mem_keys_of_get? hi
    · exact h.registered a ha
  depends a ha := by
    rcases List.mem_cons.1 ha with rfl | ha
    · exact .single ⟨i, hi, hd⟩
    · exact (h.depends a ha).tail ⟨i, hi, hd⟩

/-- No more steps can wait than there are. -/
theorem Waiting.length_lt {path : List String} (h : Waiting steps path id) (hp : id ∉ path)
    {i : Inputs} (hi : steps.get? id = some i) : path.length < steps.size := by
  have hsubset : id :: path ⊆ steps.keys :=
    List.cons_subset.2 ⟨mem_keys_of_get? hi, h.registered⟩
  have hlength := (List.subperm_of_subset (List.nodup_cons.2 ⟨hp, h.nodup⟩) hsubset).length_le
  have hsize : steps.keys.length = steps.size := List.length_map _
  rw [List.length_cons] at hlength
  omega

/-- The computation of a key comes to an end. -/
theorem compute_ok (pipeline : String) (acyclic : Acyclic steps) (closed : Closed steps)
    {fuel : Nat} {path : List String} {i : Inputs} (hi : steps.get? id = some i)
    (h : Waiting steps path id) (hfuel : steps.size ≤ fuel + path.length) (keys : Keys) :
    (compute pipeline steps fuel path id keys).1 = .ok () := by
  induction fuel using Nat.strongRecOn generalizing path id i keys with
  | ind fuel ih =>
    by_cases hk : keys.contains id = true
    · rw [compute_of_contains hk]
    have hp : id ∉ path := fun hmem => acyclic id (h.depends id hmem)
    have hwaiting := h.length_lt hp hi
    cases fuel with
    | zero => omega
    | succ fuel =>
      have heach : (each (compute pipeline steps fuel (id :: path)) i.dependencies keys).1
          = .ok () := by
        refine each_ok (fun d hd keys => ?_) keys
        obtain ⟨j, hj⟩ := closed id d ⟨i, hi, hd⟩
        refine ih fuel (by omega) hj (h.cons hp hi hd) ?_ keys
        rw [List.length_cons]
        omega
      rcases heq : each (compute pipeline steps fuel (id :: path)) i.dependencies keys
        with ⟨result, keys'⟩
      rw [heq] at heach
      cases heach
      rw [compute_of_each_ok hk hp hi heq]

namespace Engine

/-- The engines that come about by registering steps and asking for keys, in any order. -/
inductive Reachable : Engine → Prop where
  | new (pipeline : String) : Reachable { pipeline }
  | insert {e : Engine} (h : e.Reachable) (id : String) (i : Inputs) : Reachable (e.insert id i)
  | key {e : Engine} (h : e.Reachable) (id : String) : Reachable (e.key id).2
  | allKeys {e : Engine} (h : e.Reachable) : Reachable e.allKeys.2

theorem key_snd (e : Engine) (id : String) :
    (e.key id).2 = { e with keys := (compute e.pipeline e.steps e.steps.size [] id e.keys).2 } := by
  rw [key]
  split <;> rename_i heq <;> rw [heq]

theorem allKeys_snd (e : Engine) :
    e.allKeys.2 = { e with
      keys := (each (compute e.pipeline e.steps e.steps.size []) e.steps.keys e.keys).2 } := by
  rw [allKeys]
  split <;> rename_i heq <;> rw [heq]

/-- An engine only remembers keys of its steps. -/
theorem Reachable.sound {e : Engine} (h : e.Reachable) : Sound e.steps e.keys := by
  induction h with
  | new => exact sound_empty
  | insert => exact sound_empty
  | @key e _ id ih =>
    rw [key_snd]
    exact (compute_remembers e.pipeline e.steps.size [] id e.keys ih).1.sound
  | @allKeys e _ ih =>
    rw [allKeys_snd]
    exact ((compute_remembers e.pipeline e.steps.size []).each e.steps.keys ih).1.sound

/-- An engine without cycles and unknown dependencies gives the key of every step. -/
theorem Reachable.key_ok {e : Engine} (h : e.Reachable) (acyclic : Acyclic e.steps)
    (closed : Closed e.steps) {id : String} {i : Inputs} (hi : e.steps.get? id = some i) :
    ∃ k, (e.key id).1 = .ok k ∧ IsKeyOf e.steps id k := by
  have hnone : Waiting e.steps [] id :=
    ⟨.nil, fun _ ha => absurd ha List.not_mem_nil, fun _ ha => absurd ha List.not_mem_nil⟩
  have hok : (compute e.pipeline e.steps e.steps.size [] id e.keys).1 = .ok () :=
    compute_ok e.pipeline acyclic closed hi hnone (Nat.le_refl _) e.keys
  obtain ⟨hgrows, hget⟩ := compute_remembers e.pipeline e.steps.size [] id e.keys h.sound
  obtain ⟨k, hk⟩ := hget hok
  refine ⟨k, ?_, hgrows.sound id k hk⟩
  rw [Engine.key]
  split <;> rename_i heq <;> rw [heq] at hok hk
  · rw [hk]
    rfl
  · cases hok

end Engine

end Pipework.CacheKey
