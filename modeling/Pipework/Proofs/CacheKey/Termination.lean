import Pipework.Proofs.CacheKey.Transparency
import Pipework.Proofs.Traversal

/-!
# Keys of arbitrary steps

`compute` is given a bound on the number of steps that wait for each other. `Ends` is the same
recursion without a bound: a derivation of it is a finite tree of calls, so a call with an outcome
terminates. Whatever the steps are and whatever is remembered, asking for a key has exactly one
outcome, and `compute` finds it (`ends_iff`), so the bound is never what stops it.

A failure names a step that has no key: one that is not registered, or one that depends on itself
(`Defect`). Hence a step has a key if and only if no such step can be reached from it
(`Engine.ends_and_key_ok_iff`).
-/

namespace Pipework.CacheKey

/-- How a computation ends, and the keys remembered by then. -/
abbrev Outcome := Except Error Unit × Keys

variable {pipeline : String} {steps : Dict Inputs} {id : String}

mutual

/-- How the computation of the key of a step ends while the steps on the path wait for it. -/
inductive Ends (pipeline : String) (steps : Dict Inputs) :
    List String → String → Keys → Outcome → Prop where
  | remembered {path : List String} {id : String} {memo : Keys} (known : memo.contains id = true) :
      Ends pipeline steps path id memo (.ok (), memo)
  | waiting {path : List String} {id : String} {memo : Keys} (unknown : ¬ memo.contains id = true)
      (waits : id ∈ path) : Ends pipeline steps path id memo (.error (cycle pipeline id), memo)
  | unregistered {path : List String} {id : String} {memo : Keys}
      (unknown : ¬ memo.contains id = true) (new : id ∉ path) (missing : steps.get? id = none) :
      Ends pipeline steps path id memo (.error (unknownStep pipeline id), memo)
  | failed {path : List String} {id : String} {memo memo' : Keys} {i : Inputs} {cause : Error}
      (unknown : ¬ memo.contains id = true) (new : id ∉ path) (registered : steps.get? id = some i)
      (dependencies : EachEnds pipeline steps (id :: path) i.dependencies memo
        (.error cause, memo')) :
      Ends pipeline steps path id memo (.error cause, memo')
  | digested {path : List String} {id : String} {memo memo' : Keys} {i : Inputs}
      (unknown : ¬ memo.contains id = true) (new : id ∉ path) (registered : steps.get? id = some i)
      (dependencies : EachEnds pipeline steps (id :: path) i.dependencies memo (.ok (), memo')) :
      Ends pipeline steps path id memo (.ok (), memo'.insert id
        (Digest.sha256Hex (i.message fun d => (memo'.get? d).getD "")))

/-- The computation of several keys, one after the other up to the first failure, ends like this. -/
inductive EachEnds (pipeline : String) (steps : Dict Inputs) :
    List String → List String → Keys → Outcome → Prop where
  | done {path : List String} {memo : Keys} : EachEnds pipeline steps path [] memo (.ok (), memo)
  | failed {path : List String} {id : String} {ids : List String} {memo memo' : Keys}
      {cause : Error} (first : Ends pipeline steps path id memo (.error cause, memo')) :
      EachEnds pipeline steps path (id :: ids) memo (.error cause, memo')
  | next {path : List String} {id : String} {ids : List String} {memo memo' : Keys}
      {outcome : Outcome} (first : Ends pipeline steps path id memo (.ok (), memo'))
      (rest : EachEnds pipeline steps path ids memo' outcome) :
      EachEnds pipeline steps path (id :: ids) memo outcome

end

mutual

/-- A computation ends in no more than one way. -/
theorem Ends.unique {path : List String} {id : String} {memo : Keys} {o o' : Outcome} :
    Ends pipeline steps path id memo o → Ends pipeline steps path id memo o' → o = o'
  | .remembered known, h' => by cases h' <;> grind
  | .waiting unknown waits, h' => by cases h' <;> grind
  | .unregistered unknown new missing, h' => by cases h' <;> grind
  | .failed unknown new registered dependencies, h' => by
    cases h' with
    | failed _ _ registered' dependencies' =>
      cases registered'.symm.trans registered
      exact EachEnds.unique dependencies dependencies'
    | digested _ _ registered' dependencies' =>
      cases registered'.symm.trans registered
      cases EachEnds.unique dependencies dependencies'
    | _ => grind
  | .digested unknown new registered dependencies, h' => by
    cases h' with
    | failed _ _ registered' dependencies' =>
      cases registered'.symm.trans registered
      cases EachEnds.unique dependencies dependencies'
    | digested _ _ registered' dependencies' =>
      cases registered'.symm.trans registered
      cases EachEnds.unique dependencies dependencies'
      rfl
    | _ => grind
termination_by structural h => h

theorem EachEnds.unique {path ids : List String} {memo : Keys} {o o' : Outcome} :
    EachEnds pipeline steps path ids memo o → EachEnds pipeline steps path ids memo o' → o = o'
  | .done, .done => rfl
  | .failed first, h' => by
    cases h' with
    | failed first' => exact Ends.unique first first'
    | next first' rest' => cases Ends.unique first first'
  | .next first rest, h' => by
    cases h' with
    | failed first' => cases Ends.unique first first'
    | next first' rest' =>
      cases Ends.unique first first'
      exact EachEnds.unique rest rest'
termination_by structural h => h

end

theorem eachEnds_each {path ids : List String} {f : String → Keys → Outcome}
    (hf : ∀ id ∈ ids, ∀ memo, Ends pipeline steps path id memo (f id memo)) (memo : Keys) :
    EachEnds pipeline steps path ids memo (each f ids memo) := by
  induction ids generalizing memo with
  | nil => exact .done
  | cons id ids ih =>
    have hfirst := hf id List.mem_cons_self memo
    rcases heq : f id memo with ⟨cause | _, memo'⟩ <;> rw [heq] at hfirst
    · simpa only [each, heq] using EachEnds.failed hfirst
    · simpa only [each, heq] using
        EachEnds.next hfirst (ih (fun d hd => hf d (List.mem_cons_of_mem id hd)) memo')

/-- With a bound that all steps together do not exceed, the computation ends as it would without. -/
theorem ends_compute {fuel : Nat} {path : List String} (hwaiting : Waiting steps path id)
    (hfuel : steps.size ≤ fuel + path.length) (memo : Keys) :
    Ends pipeline steps path id memo (compute pipeline steps fuel path id memo) := by
  induction fuel using Nat.strongRecOn generalizing path id memo with
  | ind fuel ih =>
    by_cases hk : memo.contains id = true
    · rw [compute_of_contains hk]
      exact .remembered hk
    by_cases hp : id ∈ path
    · rw [compute_of_mem hk hp]
      exact .waiting hk hp
    cases hi : steps.get? id with
    | none =>
      rw [compute_of_unknown hk hp hi]
      exact .unregistered hk hp hi
    | some i =>
      have hlength := hwaiting.length_lt hp hi
      obtain ⟨fuel, rfl⟩ : ∃ n, fuel = n + 1 := ⟨fuel - 1, by omega⟩
      have heach : EachEnds pipeline steps (id :: path) i.dependencies memo
          (each (compute pipeline steps fuel (id :: path)) i.dependencies memo) :=
        eachEnds_each (fun d hd memo => ih fuel (by omega) (hwaiting.cons hp hi hd) (by grind) memo)
          memo
      rcases heq : each (compute pipeline steps fuel (id :: path)) i.dependencies memo
        with ⟨cause | _, memo'⟩ <;> rw [heq] at heach
      · rw [compute_of_each_error hk hp hi heq]
        exact .failed hk hp hi heach
      · rw [compute_of_each_ok hk hp hi heq]
        exact .digested hk hp hi heach

theorem ends_iff {fuel : Nat} {path : List String} (hwaiting : Waiting steps path id)
    (hfuel : steps.size ≤ fuel + path.length) {memo : Keys} {o : Outcome} :
    Ends pipeline steps path id memo o ↔ o = compute pipeline steps fuel path id memo := by
  constructor
  · intro h
    exact h.unique (ends_compute hwaiting hfuel memo)
  · rintro rfl
    exact ends_compute hwaiting hfuel memo

/-! ## Steps without a key -/

/-- What is wrong with a step that has no key by itself. -/
inductive Defect (pipeline : String) (steps : Dict Inputs) (a : String) : Error → Prop where
  | unregistered (missing : steps.get? a = none) : Defect pipeline steps a (unknownStep pipeline a)
  | circular (onCycle : Relation.TransGen (DependsOn steps) a a) :
      Defect pipeline steps a (cycle pipeline a)

mutual

/-- What a computation fails for is a defect of a step that it has come to. -/
theorem Ends.exists_defect {path : List String} {id : String} {memo : Keys} {o : Outcome}
    {cause : Error} : Ends pipeline steps path id memo o → Waiting steps path id →
    o.1 = .error cause →
    ∃ a, Relation.ReflTransGen (DependsOn steps) id a ∧ Defect pipeline steps a cause
  | .remembered _, _, herror => by cases herror
  | .waiting _ waits, hwaiting, herror => by
    cases herror
    exact ⟨id, .refl, .circular (hwaiting.depends id waits)⟩
  | .unregistered _ _ missing, _, herror => by
    cases herror
    exact ⟨id, .refl, .unregistered missing⟩
  | .failed _ new registered dependencies, hwaiting, herror => by
    obtain ⟨d, hd, a, hda, hdefect⟩ := EachEnds.exists_defect dependencies
      (fun d hd => hwaiting.cons new registered hd) herror
    exact ⟨a, .head ⟨_, registered, hd⟩ hda, hdefect⟩
  | .digested _ _ _ _, _, herror => by cases herror
termination_by structural h => h

theorem EachEnds.exists_defect {path ids : List String} {memo : Keys} {o : Outcome}
    {cause : Error} : EachEnds pipeline steps path ids memo o → (∀ d ∈ ids, Waiting steps path d) →
    o.1 = .error cause →
    ∃ d ∈ ids, ∃ a, Relation.ReflTransGen (DependsOn steps) d a ∧ Defect pipeline steps a cause
  | .done, _, herror => by cases herror
  | .failed first, hwaiting, herror =>
    ⟨_, List.mem_cons_self, Ends.exists_defect first (hwaiting _ List.mem_cons_self) herror⟩
  | .next _ rest, hwaiting, herror => by
    obtain ⟨d, hd, hdefect⟩ := EachEnds.exists_defect rest
      (fun d hd => hwaiting d (List.mem_cons_of_mem _ hd)) herror
    exact ⟨d, List.mem_cons_of_mem _ hd, hdefect⟩
termination_by structural h => h

end

/-- Whatever a step with a key depends on has a key. -/
theorem IsKeyOf.exists_of_reachable {k a : String} (h : IsKeyOf steps id k)
    (hreach : Relation.ReflTransGen (DependsOn steps) id a) : ∃ l, IsKeyOf steps a l := by
  induction hreach with
  | refl => exact ⟨k, h⟩
  | tail _ hdepends ih =>
    obtain ⟨i, hi, hd⟩ := hdepends
    obtain ⟨_, hkey⟩ := ih
    cases hkey with
    | digest key registered keys =>
      cases hi.symm.trans registered
      exact ⟨_, keys _ hd⟩

theorem IsKeyOf.registered {k : String} (h : IsKeyOf steps id k) : ∃ i, steps.get? id = some i := by
  cases h with
  | digest _ registered _ => exact ⟨_, registered⟩

namespace Engine

variable {e : Engine}

/-- The computation of a key ends, in one way only, with what the engine answers and remembers. -/
theorem ends_key (e : Engine) (id : String) (o : Outcome) :
    Ends e.pipeline e.steps [] id e.keys o
      ↔ o = ((e.key id).1.map fun _ => (), (e.key id).2.keys) := by
  have hfst : (e.key id).1.map (fun _ => ())
      = (compute e.pipeline e.steps e.steps.size [] id e.keys).1 := by
    rw [key_fst]
    cases (compute e.pipeline e.steps e.steps.size [] id e.keys).1 <;> rfl
  rw [hfst, key_snd]
  exact ends_iff (waiting_nil id) (Nat.le_refl _)

/-- An engine that gives no key names a defect of a step that the key depends on. -/
theorem exists_defect_of_key {cause : Error} (h : (e.key id).1 = .error cause) :
    ∃ a, Relation.ReflTransGen (DependsOn e.steps) id a ∧ Defect e.pipeline e.steps a cause := by
  refine ((ends_key e id _).2 rfl).exists_defect (waiting_nil id) ?_
  rw [h]
  rfl

theorem Reachable.isKeyOf_key (h : e.Reachable) {k : String} (hk : (e.key id).1 = .ok k) :
    IsKeyOf e.steps id k := by
  obtain ⟨hgrows, hget⟩ := compute_remembers e.pipeline e.steps.size [] id e.keys h.sound
  rw [key_fst, key_snd, map_eq_ok_iff] at hk
  obtain ⟨⟨⟩, hok, rfl⟩ := hk
  obtain ⟨k, hk⟩ := hget hok
  rw [hk]
  exact hgrows.sound id k hk

/-- An engine gives the key of a step if and only if all that the key depends on is registered and
not on a cycle. -/
theorem Reachable.key_ok_iff (h : e.Reachable) (id : String) : (∃ k, (e.key id).1 = .ok k) ↔
    ∀ a, Relation.ReflTransGen (DependsOn e.steps) id a →
      (∃ i, e.steps.get? a = some i) ∧ ¬ Relation.TransGen (DependsOn e.steps) a a := by
  constructor
  · rintro ⟨k, hk⟩ a hreach
    obtain ⟨l, hl⟩ := (h.isKeyOf_key hk).exists_of_reachable hreach
    exact ⟨hl.registered, hl.not_dependsOn_self⟩
  · intro hsound
    cases hkey : (e.key id).1 with
    | ok k => exact ⟨k, rfl⟩
    | error cause =>
      obtain ⟨a, hreach, hdefect⟩ := exists_defect_of_key hkey
      obtain ⟨⟨i, hi⟩, hacyclic⟩ := hsound a hreach
      cases hdefect with
      | unregistered missing => cases missing.symm.trans hi
      | circular onCycle => exact absurd onCycle hacyclic

/-- Whatever has been done with an engine before, the recursion that looks for a key comes to an
end, in the one way that the engine answers, and there is a key if and only if each step that can be
reached through dependencies is registered and does not depend on itself. -/
theorem ends_and_key_ok_iff (pipeline : String) (operations : List Operation) (id : String) :
    let e := run { pipeline } operations
    (∀ o, Ends pipeline e.steps [] id e.keys o
      ↔ o = ((e.key id).1.map fun _ => (), (e.key id).2.keys))
    ∧ ((∃ k, (e.key id).1 = .ok k) ↔
      ∀ a, Relation.ReflTransGen (DependsOn e.steps) id a →
        (∃ i, e.steps.get? a = some i) ∧ ¬ Relation.TransGen (DependsOn e.steps) a a) := by
  intro e
  have hpipeline : e.pipeline = pipeline := pipeline_run _ operations
  refine ⟨fun o => ?_, ((Reachable.new pipeline).run operations).key_ok_iff id⟩
  rw [← hpipeline]
  exact ends_key e id o

end Engine

end Pipework.CacheKey
