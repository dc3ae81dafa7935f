import Mathlib.Data.List.Induction
import Pipework.Dispatch.Coordinator
import Pipework.Proofs.Registration.Request

/-!
# Races of registrations

Any number of registrations share one store. A schedule names the call that makes the next request,
so the states that a race can reach are those of `Race.run` over all schedules. Calls only ever add
records, and a call moves only when it is scheduled.
-/

namespace Pipework

/-- A new workspace whose identifiers are given out in their order. -/
def World.initial : World := .ofEnvironment {} { sequence := Uuid.ofNat } { seconds := 0 }

/-- A call that registers a spec of a pipeline. The hash is computed before any request is made. -/
structure Registrant where
  pipeline : Pipeline
  spec : Spec
  versionHash : String
  hashed : pipeline.versionHash spec = .ok versionHash

namespace Registrant

/-- The version that the call asks for. -/
def draft (c : Registrant) (s : Store) : VersionDraft where
  name := c.pipeline.name
  versionHash := c.versionHash
  spec := c.spec
  docstring := c.pipeline.definition.docstring
  user := s.user.id
  workspace := s.workspace.id

/-- Registering a spec is a registration of this draft. -/
theorem registerSpec_eq (c : Registrant) (w : World) :
    Coordinator.registerSpec c.pipeline c.spec w = Registration.register (c.draft w.store) w := by
  simp only [Coordinator.registerSpec, c.hashed, bind, Effect.lift, Effect.view]
  rfl

/-- A call that registers a pipeline of this name without steps. -/
def ofName (name : String) : Registrant where
  pipeline := .ofName name
  spec := { version := Spec.currentVersion, steps := [] }
  versionHash := Digest.md5Hex (Spec.identityText { version := Spec.currentVersion, steps := [] })
  hashed := by
    rw [← String.append_empty (s := Spec.identityText _), ← String.append_empty (s := _ ++ _)]
    rfl

end Registrant

/-- Registrations under way in one world. -/
structure Race where
  calls : List Registration
  world : World

namespace Race

/-- The race before any request. -/
def start (w : World) (calls : List Registrant) : Race where
  calls := calls.map fun c => { draft := c.draft w.store }
  world := w

/-- The `i`-th call makes its next request. -/
def step (race : Race) (i : Nat) : Race :=
  match race.calls[i]? with
  | none => race
  | some r => { calls := race.calls.set i (r.step race.world).1, world := (r.step race.world).2 }

/-- The calls make requests in the order of a schedule. -/
def run (race : Race) (schedule : List Nat) : Race := schedule.foldl step race

@[simp] theorem run_nil (race : Race) : race.run [] = race := rfl

theorem run_append (race : Race) (s t : List Nat) : race.run (s ++ t) = (race.run s).run t :=
  List.foldl_append

theorem run_snoc (race : Race) (s : List Nat) (i : Nat) :
    race.run (s ++ [i]) = (race.run s).step i := race.run_append s [i]

/-- The versions of a pipeline that are stored by now. -/
def versions (race : Race) (name : String) : List (Record PipelineVersion) :=
  race.world.store.versions name

/-- What the `i`-th call does in a step: it goes from `r` to `r'` and adds some records. -/
structure Move (race : Race) (i : Nat) (r r' : Registration)
    (added : List (Record PipelineVersion)) : Prop where
  call : race.calls[i]? = some r
  request : Registration.Request race.world.store r r' added
  calls : (race.step i).calls = race.calls.set i r'
  pipelines : (race.step i).world.store.pipelines = race.world.store.pipelines ++ added
  rivals : (race.step i).world.rivals = []

theorem step_of_none {race : Race} {i : Nat} (h : race.calls[i]? = none) : race.step i = race := by
  rw [step, h]

theorem exists_move {race : Race} {i : Nat} {r : Registration} (h : race.calls[i]? = some r)
    (alone : race.world.rivals = []) : ∃ r' added, race.Move i r r' added := by
  obtain ⟨added, request, pipelines, rivals⟩ := r.step_request alone
  refine ⟨(r.step race.world).1, added, h, request, ?_, ?_, ?_⟩ <;> simp only [step, h]
  · exact pipelines
  · exact rivals

/-- A property that holds at the start and is kept by every move holds in every state. -/
theorem run_induction {P : Race → Prop} {race : Race} (start : P race)
    (alone : race.world.rivals = [])
    (keep : ∀ (race : Race) (i : Nat) (r r' : Registration) (added : List (Record PipelineVersion)),
      race.Move i r r' added → P race → P (race.step i)) (schedule : List Nat) :
    P (race.run schedule) ∧ (race.run schedule).world.rivals = [] := by
  induction schedule using List.reverseRecOn with
  | nil => exact ⟨start, alone⟩
  | append_singleton schedule i ih =>
    rw [run_snoc]
    cases h : (race.run schedule).calls[i]? with
    | none => rwa [step_of_none h]
    | some r =>
      obtain ⟨r', added, move⟩ := exists_move h ih.2
      exact ⟨keep _ i r r' added move ih.1, move.rivals⟩

theorem rivals_run {race : Race} (alone : race.world.rivals = []) (schedule : List Nat) :
    (race.run schedule).world.rivals = [] :=
  (run_induction (P := fun _ => True) trivial alone (fun _ _ _ _ _ _ h => h) schedule).2

namespace Move

variable {race : Race} {i : Nat} {r r' : Registration} {added : List (Record PipelineVersion)}

theorem versions_eq (move : race.Move i r r' added) (name : String) :
    (race.step i).versions name
      = race.versions name ++ added.filter fun record => record.body.name = name :=
  Store.versions_of_append move.pipelines name

/-- After the move the `i`-th call stands at `r'`, and the others stand where they stood. -/
theorem getElem?_calls (move : race.Move i r r' added) (j : Nat) :
    (race.step i).calls[j]? = if i = j then some r' else race.calls[j]? := by
  have hi := (List.getElem?_eq_some_iff.1 move.call).1
  rw [move.calls]
  by_cases h : i = j
  · subst h
    simp [List.getElem?_set_self hi]
  · simp [h, List.getElem?_set_ne h]

theorem mem_calls (move : race.Move i r r' added) {c : Registration}
    (h : c ∈ (race.step i).calls) : c ∈ race.calls ∨ c = r' := by
  rw [move.calls] at h
  exact List.mem_or_eq_of_mem_set h

end Move

/-- What holds of a call at the start, and is kept by its own requests and by those of the others,
holds of it in every state. -/
theorem call_induction {race : Race} {i : Nat} {P : List Nat → Registration → Prop}
    (alone : race.world.rivals = []) (start : ∀ r, race.calls[i]? = some r → P [] r)
    (own : ∀ s r r' added, (race.run s).Move i r r' added → P s r → P (s ++ [i]) r')
    (others : ∀ s j r, j ≠ i → P s r → P (s ++ [j]) r) {schedule : List Nat} {r : Registration}
    (h : (race.run schedule).calls[i]? = some r) : P schedule r := by
  induction schedule using List.reverseRecOn generalizing r with
  | nil => exact start r h
  | append_singleton s j ih =>
    rw [run_snoc] at h
    cases hj : (race.run s).calls[j]? with
    | none =>
      rw [step_of_none hj] at h
      have hne : j ≠ i := by
        rintro rfl
        rw [hj] at h
        cases h
      exact others s j r hne (ih h)
    | some c =>
      obtain ⟨c', added, move⟩ := exists_move hj (rivals_run alone s)
      rw [move.getElem?_calls] at h
      by_cases hne : j = i
      · subst hne
        rw [if_pos rfl] at h
        cases h
        exact own s c r added move (ih hj)
      · rw [if_neg hne] at h
        exact others s j r hne (ih h)

end Race

namespace Registration.Request

variable {s : Store} {r r' : Registration} {added : List (Record PipelineVersion)}

theorem draft_eq (request : Request s r r' added) : r'.draft = r.draft := by
  cases request with
  | taken => unfold lost; split <;> rfl
  | found | missing | numbered | unreadable | created | ended => rfl

/-- A call that has ended makes no more requests. -/
theorem eq_of_result? (request : Request s r r' added) {result}
    (h : r.result? = some result) : r' = r ∧ added = [] := by
  cases request with
  | ended => exact ⟨rfl, rfl⟩
  | found _ stage | missing stage | numbered _ stage | unreadable _ stage | created _ _ stage
  | taken _ stage => simp [result?, stage] at h

end Registration.Request

end Pipework
