import Pipework.Store.Basic

/-!
# The default stack

A store remembers the identifier of its default stack apart from the stacks, which may be deleted
and registered again under any identifier. Every operation on stacks does one of four things
(`Keeper.does_step`): it registers, it deletes, it leaves the store as it was, or it makes a default
stack because there is none. So the default stack stays the same until it is deleted, and each
deletion brings back one stack at most (`Keeper.heals_run`).
-/

namespace Pipework

namespace Store

variable {s : Store} {ids : Supply} {m : StackModel} {id : Uuid}

/-! ## Stored stacks -/

theorem id_of_stack? (h : s.stack? id = some m) : m.id = id := by
  simpa using List.find?_some h

theorem find?_filter_ne {l : List StackModel} {other : Uuid} :
    (l.filter (·.id ≠ other)).find? (·.id = id)
      = if id = other then none else l.find? (·.id = id) := by
  rw [List.find?_filter]
  split
  · rename_i hid
    subst hid
    simp
  · rename_i hid
    congr 1
    funext m
    by_cases hm : m.id = id <;> simp [hm, hid]

theorem stack?_registerStack :
    (s.registerStack m).stack? id = if id = m.id then some m else s.stack? id := by
  rw [stack?, registerStack, List.find?_append, find?_filter_ne]
  by_cases h : id = m.id <;> simp [h, eq_comm, stack?]

theorem stack?_deleteStack {other : Uuid} : (s.deleteStack other).2.stack? id
    = if id = other then none else s.stack? id :=
  find?_filter_ne

theorem getStack_eq_ok_iff : s.getStack id = .ok m ↔ s.stack? id = some m := by
  rw [getStack]
  cases s.stack? id <;> simp

theorem getStack_eq_error_iff {cause : StoreError} : s.getStack id = .error cause ↔
    s.stack? id = none ∧ cause = .notFound "Stack" id.toText := by
  rw [getStack]
  cases s.stack? id <;> simp [eq_comm]

/-- A stack under a new identifier comes after the others. -/
theorem stackModels_registerStack (h : s.stack? m.id = none) :
    (s.registerStack m).stackModels = s.stackModels ++ [m] := by
  have hall : ∀ other ∈ s.stackModels, other.id ≠ m.id := by
    simpa [stack?, List.find?_eq_none] using h
  have hfilter : s.stackModels.filter (·.id ≠ m.id) = s.stackModels := by
    simpa [List.filter_eq_self] using hall
  rw [registerStack, hfilter]

theorem presentDefault?_eq_some_iff :
    s.presentDefault? = some m ↔ s.defaultStack = some m.id ∧ s.stack? m.id = some m := by
  rw [presentDefault?, Option.bind_eq_some_iff]
  constructor
  · rintro ⟨id, hid, hm⟩
    rw [id_of_stack? hm]
    exact ⟨hid, hm⟩
  · rintro ⟨hid, hm⟩
    exact ⟨m.id, hid, hm⟩

theorem ensureDefaultStack_of_present (h : s.presentDefault? = some m) :
    s.ensureDefaultStack ids = (m, s, ids) := by
  rw [ensureDefaultStack, h]

theorem ensureDefaultStack_of_missing (ids : Supply) (h : s.presentDefault? = none) :
    ∃ d : StackModel, d.id = ids.sequence (ids.used + 2)
      ∧ s.ensureDefaultStack ids = (d, { s.registerStack d with defaultStack := some d.id },
        { ids with used := ids.used + 3 }) := by
  refine ⟨(newDefaultStack s.workspace.id ids).1, rfl, ?_⟩
  rw [ensureDefaultStack, h]
  rfl

end Store

/-- A store that is asked about stacks, with the identifiers for those that it makes. -/
structure Keeper where
  store : Store
  ids : Supply

namespace Keeper

inductive Op where
  | register (stack : StackModel)
  | delete (id : Uuid)
  | get (id : Uuid)
  | default
  /-- Asks for the stack with an identifier, or for the default stack where there is none. -/
  | validate (id : Option Uuid)
  deriving DecidableEq

/-- Does one thing, and gives the stack that was asked for or removed. -/
def step (k : Keeper) : Op → Except StoreError (Option StackModel) × Keeper
  | .register stack => (.ok none, { k with store := k.store.registerStack stack })
  | .delete id =>
    let (removed, store) := k.store.deleteStack id
    (.ok removed, { k with store })
  | .get id => ((k.store.getStack id).map some, k)
  | .default =>
    let (stack, store, ids) := k.store.ensureDefaultStack k.ids
    (.ok (some stack), { store, ids })
  | .validate id =>
    let (stack, store, ids) := k.store.activeStack id k.ids
    (.ok (some stack), { store, ids })

def run (k : Keeper) (ops : List Op) : Keeper := ops.foldl (fun k op => (k.step op).2) k

/-- The store of a new workspace. -/
def start (e : Environment) (ids : Supply) : Keeper :=
  let (store, ids) := Store.ofEnvironment e ids
  { store, ids }

/-- The operations of a run, each with the store that it was asked of. -/
def history (k : Keeper) : List Op → List (Keeper × Op)
  | [] => []
  | op :: ops => (k, op) :: (k.step op).2.history ops

/-- The identifier of the default stack, if it is there. -/
def defaultId? (k : Keeper) : Option Uuid := k.store.presentDefault?.map (·.id)

/-- The operation gives a stack that was not stored before. -/
def creates (k : Keeper) (op : Op) : Bool := match (k.step op).1 with
  | .ok (some stack) => k.store.stack? stack.id ≠ some stack
  | _ => false

/-- The operation removes the default stack. -/
def deletesDefault (k : Keeper) : Op → Bool
  | .delete id => k.defaultId? = some id
  | _ => false

/-- How many stacks a run makes without being given them. -/
def creations (k : Keeper) (ops : List Op) : Nat :=
  (k.history ops).countP fun e => e.1.creates e.2

/-- How often a run deletes the default stack. -/
def deletions (k : Keeper) (ops : List Op) : Nat :=
  (k.history ops).countP fun e => e.1.deletesDefault e.2

/-- The identifiers that a run takes are different from each other, and no stack is registered under
one of them before it was taken. -/
structure Fresh (k : Keeper) (ops : List Op) : Prop where
  distinct : (k.run ops).ids.Fresh
  registered : ∀ e ∈ k.history ops, ∀ stack, e.2 = .register stack →
    ∀ i, e.1.ids.used ≤ i → i < (k.run ops).ids.used → e.1.ids.sequence i ≠ stack.id

/-! ## One operation -/

variable {k : Keeper} {op : Op} {ops : List Op} {id : Uuid}
  {result : Except StoreError (Option StackModel) × Keeper}

/-- What an operation can do: the answer and what is left. -/
inductive Does (k : Keeper) : Op → Except StoreError (Option StackModel) × Keeper → Prop where
  | registers (stack : StackModel) :
      Does k (.register stack) (.ok none, { k with store := k.store.registerStack stack })
  | deletes (id : Uuid) :
      Does k (.delete id) (.ok (k.store.stack? id), { k with store := (k.store.deleteStack id).2 })
  | answers {op : Op} {answer : Except StoreError (Option StackModel)}
      (hop : ∀ id, op ≠ .delete id)
      (hstored : ∀ stack, answer = .ok (some stack) → k.store.stack? stack.id = some stack) :
      Does k op (answer, k)
  | heals {op : Op} {stack : StackModel} (hop : ∀ id, op ≠ .delete id)
      (hmissing : k.store.presentDefault? = none)
      (hid : stack.id = k.ids.sequence (k.ids.used + 2)) :
      Does k op (.ok (some stack), {
        store := { k.store.registerStack stack with defaultStack := some stack.id }
        ids := { k.ids with used := k.ids.used + 3 } })

theorem step_default_of_present {stack : StackModel}
    (h : k.store.presentDefault? = some stack) : k.step .default = (.ok (some stack), k) := by
  rw [step, Store.ensureDefaultStack_of_present h]

theorem step_default_of_missing (h : k.store.presentDefault? = none) :
    ∃ stack : StackModel, stack.id = k.ids.sequence (k.ids.used + 2)
      ∧ k.step .default = (.ok (some stack), {
        store := { k.store.registerStack stack with defaultStack := some stack.id }
        ids := { k.ids with used := k.ids.used + 3 } }) := by
  obtain ⟨stack, hid, hmade⟩ := Store.ensureDefaultStack_of_missing k.ids h
  exact ⟨stack, hid, by rw [step, hmade]⟩

theorem does_default (hop : ∀ id, op ≠ .delete id) : k.Does op (k.step .default) := by
  cases hpresent : k.store.presentDefault? with
  | some stack =>
    rw [step_default_of_present hpresent]
    refine .answers hop ?_
    rintro other ⟨⟩
    exact (Store.presentDefault?_eq_some_iff.1 hpresent).2
  | none =>
    obtain ⟨stack, hid, hmade⟩ := step_default_of_missing hpresent
    rw [hmade]
    exact .heals hop hpresent hid

theorem step_validate_of_stored {stack : StackModel} (h : k.store.stack? id = some stack) :
    k.step (.validate (some id)) = (.ok (some stack), k) := by
  simp [step, Store.activeStack, h]

theorem step_validate_of_missing {id : Option Uuid} (h : id.bind k.store.stack? = none) :
    k.step (.validate id) = k.step .default := by
  simp [step, Store.activeStack, h]

theorem does_step (k : Keeper) (op : Op) : k.Does op (k.step op) := by
  cases op with
  | register stack => exact .registers stack
  | delete id => exact .deletes id
  | get id =>
    refine .answers (by simp) ?_
    intro stack h
    cases hfound : k.store.getStack id with
    | error cause => simp [hfound, Except.map] at h
    | ok found =>
      obtain rfl : found = stack := by simpa [hfound, Except.map] using h
      have hstored := Store.getStack_eq_ok_iff.1 hfound
      rwa [Store.id_of_stack? hstored]
  | default => exact does_default (by simp)
  | validate id =>
    cases hfound : id.bind k.store.stack? with
    | none =>
      rw [step_validate_of_missing hfound]
      exact does_default (by simp)
    | some stack =>
      obtain ⟨id, rfl, hstack⟩ := Option.bind_eq_some_iff.1 hfound
      rw [step_validate_of_stored hstack]
      refine .answers (by simp) ?_
      rintro other ⟨⟩
      rwa [Store.id_of_stack? hstack]

theorem defaultId?_eq_some_iff : k.defaultId? = some id ↔
    k.store.defaultStack = some id ∧ (k.store.stack? id).isSome := by
  rw [defaultId?, Option.map_eq_some_iff]
  constructor
  · rintro ⟨stack, hstack, rfl⟩
    obtain ⟨hid, hstored⟩ := Store.presentDefault?_eq_some_iff.1 hstack
    exact ⟨hid, by simp [hstored]⟩
  · rintro ⟨hid, hstored⟩
    obtain ⟨stack, hstack⟩ := Option.isSome_iff_exists.1 hstored
    have hstackId := Store.id_of_stack? hstack
    subst hstackId
    exact ⟨stack, Store.presentDefault?_eq_some_iff.2 ⟨hid, hstack⟩, rfl⟩

/-- Only a deletion can change which stack is the default stack. -/
theorem Does.keeps_default (hdoes : k.Does op result) (h : k.defaultId? = some id)
    (hop : op ≠ .delete id) : result.2.defaultId? = some id := by
  have hmissing : k.store.presentDefault? ≠ none := by
    intro hnone
    simp [defaultId?, hnone] at h
  rw [defaultId?_eq_some_iff] at h ⊢
  obtain ⟨hid, hstored⟩ := h
  cases hdoes with
  | registers stack =>
    refine ⟨hid, ?_⟩
    rw [Store.stack?_registerStack]
    split
    · rfl
    · exact hstored
  | deletes other =>
    have hne : id ≠ other := by
      rintro rfl
      exact hop rfl
    exact ⟨hid, by rwa [Store.stack?_deleteStack, if_neg hne]⟩
  | answers => exact ⟨hid, hstored⟩
  | heals _ hnone => exact absurd hnone hmissing

theorem presentDefault?_made (s : Store) (d : StackModel) :
    ({ s.registerStack d with defaultStack := some d.id } : Store).presentDefault? = some d := by
  have hstored : (s.registerStack d).stack? d.id = some d := by
    rw [Store.stack?_registerStack, if_pos rfl]
  exact Store.presentDefault?_eq_some_iff.2 ⟨rfl, hstored⟩

/-- To ask for the default stack never fails, and the answer is the default stack from then on. -/
theorem exists_step_default (k : Keeper) : ∃ d k', k.step .default = (.ok (some d), k')
    ∧ k'.store.presentDefault? = some d := by
  cases hpresent : k.store.presentDefault? with
  | some d => exact ⟨d, k, step_default_of_present hpresent, hpresent⟩
  | none =>
    obtain ⟨d, -, hmade⟩ := step_default_of_missing hpresent
    exact ⟨d, _, hmade, presentDefault?_made k.store d⟩

/-- A stack is made only where the default stack is missing, and is the default stack then. -/
theorem missing_of_creates (h : k.creates op = true) :
    k.defaultId? = none ∧ (k.step op).2.defaultId?.isSome = true := by
  rw [creates] at h
  generalize hresult : k.step op = result at h ⊢
  have hdoes : k.Does op result := hresult ▸ k.does_step op
  cases hdoes with
  | registers => cases h
  | deletes other =>
    cases hstack : k.store.stack? other with
    | none => simp [hstack] at h
    | some stack =>
      have hid := Store.id_of_stack? hstack
      simp [hstack, hid] at h
  | @answers op answer _ hstored =>
    split at h
    · rename_i stack hanswer
      simp [hstored stack hanswer] at h
    · cases h
  | @heals op stack hop hmissing =>
    simp [defaultId?, hmissing, presentDefault?_made]

/-- How many default stacks are missing. -/
def missing (k : Keeper) : Nat := k.defaultId?.isNone.toNat

theorem creates_add_missing_le (k : Keeper) (op : Op) :
    (k.creates op).toNat + (k.step op).2.missing ≤ (k.deletesDefault op).toNat + k.missing := by
  -- Only an operation that makes a stack ends a lack, and only a deletion begins one.
  by_cases hcreates : k.creates op = true
  · obtain ⟨hmissing, hmade⟩ := missing_of_creates hcreates
    have hone : k.missing = 1 := by simp [missing, hmissing]
    have hnone : (k.step op).2.missing = 0 := by
      simpa [missing, Option.isNone_eq_false_iff] using hmade
    simp [hcreates, hone, hnone]
  · have hle : (k.step op).2.missing ≤ 1 := Bool.toNat_le _
    cases hid : k.defaultId? with
    | none =>
      have hone : k.missing = 1 := by simp [missing, hid]
      simp [hcreates, hone]
      omega
    | some id =>
      by_cases hop : op = .delete id
      · subst hop
        simp [hcreates, deletesDefault, hid]
        omega
      · simp [missing, hcreates, (k.does_step op).keeps_default hid hop]

/-! ## Runs -/

theorem run_cons : k.run (op :: ops) = (k.step op).2.run ops := rfl

theorem defaultId?_run (h : k.defaultId? = some id) (hops : .delete id ∉ ops) :
    (k.run ops).defaultId? = some id := by
  induction ops generalizing k with
  | nil => exact h
  | cons op ops ih =>
    rw [List.mem_cons, not_or] at hops
    exact ih ((k.does_step op).keeps_default h (Ne.symm hops.1)) hops.2

theorem creations_cons :
    k.creations (op :: ops) = (k.creates op).toNat + (k.step op).2.creations ops := by
  rw [creations, history, List.countP_cons, Nat.add_comm]
  cases k.creates op <;> rfl

theorem deletions_cons :
    k.deletions (op :: ops) = (k.deletesDefault op).toNat + (k.step op).2.deletions ops := by
  rw [deletions, history, List.countP_cons, Nat.add_comm]
  cases k.deletesDefault op <;> rfl

/-- Each stack that is made takes the place of a default stack that was deleted. -/
theorem creations_add_missing_le (k : Keeper) (ops : List Op) :
    k.creations ops + (k.run ops).missing ≤ k.deletions ops + k.missing := by
  induction ops generalizing k with
  | nil => exact Nat.le_refl _
  | cons op ops ih =>
    have hstep := k.creates_add_missing_le op
    have hrest := ih (k.step op).2
    rw [creations_cons, deletions_cons, run_cons]
    omega

/-! ## New identifiers -/

/-- No stack is stored under an identifier that is still to come, as far as the bound. -/
def Ahead (k : Keeper) (bound : Nat) : Prop :=
  ∀ i, k.ids.used ≤ i → i < bound → k.store.stack? (k.ids.sequence i) = none

theorem Does.sequence_eq (hdoes : k.Does op result) : result.2.ids.sequence = k.ids.sequence := by
  cases hdoes <;> rfl

theorem Does.ahead {bound : Nat} (hdoes : k.Does op result) (h : k.Ahead bound)
    (hdistinct : ∀ i < bound, ∀ j < bound, k.ids.sequence i = k.ids.sequence j → i = j)
    (hnew : ∀ stack, op = .register stack → ∀ i, k.ids.used ≤ i → i < bound →
      k.ids.sequence i ≠ stack.id) : result.2.Ahead bound := by
  intro i hi hbound
  cases hdoes with
  | registers stack =>
    rw [Store.stack?_registerStack, if_neg (hnew stack rfl i hi hbound)]
    exact h i hi hbound
  | deletes other =>
    rw [Store.stack?_deleteStack]
    split
    · rfl
    · exact h i hi hbound
  | answers => exact h i hi hbound
  | @heals op stack hop hmissing hid =>
    -- The new stack has the third of the identifiers that were taken, all of them before `i`.
    have hused : k.ids.used + 3 ≤ i := hi
    have hne : k.ids.sequence i ≠ stack.id := by
      intro heq
      have := hdistinct i hbound (k.ids.used + 2) (by omega) (heq.trans hid)
      omega
    have hstored : (k.store.registerStack stack).stack? (k.ids.sequence i) = none := by
      rw [Store.stack?_registerStack, if_neg hne]
      exact h i (by omega) hbound
    exact hstored

theorem sequence_run (k : Keeper) (ops : List Op) : (k.run ops).ids.sequence = k.ids.sequence := by
  induction ops generalizing k with
  | nil => rfl
  | cons op ops ih => rw [run_cons, ih, (k.does_step op).sequence_eq]

theorem Ahead.run {bound : Nat} (h : k.Ahead bound)
    (hdistinct : ∀ i < bound, ∀ j < bound, k.ids.sequence i = k.ids.sequence j → i = j)
    (hnew : ∀ e ∈ k.history ops, ∀ stack, e.2 = .register stack → ∀ i, e.1.ids.used ≤ i →
      i < bound → e.1.ids.sequence i ≠ stack.id) : (k.run ops).Ahead bound := by
  induction ops generalizing k with
  | nil => exact h
  | cons op ops ih =>
    rw [history, List.forall_mem_cons] at hnew
    rw [run_cons]
    refine ih ((k.does_step op).ahead h hdistinct hnew.1) ?_ hnew.2
    rw [(k.does_step op).sequence_eq]
    exact hdistinct

/-- A new workspace without its default stack. -/
def bare (e : Environment) (ids : Supply) : Keeper where
  store := {
    user := { id := ids.next.1, name := e.defaultUserName
              passwordHash := e.defaultUserPassword.map Digest.sha256Hex }
    workspace := { id := ids.next.2.next.1, name := e.defaultWorkspaceName } }
  ids := ids.next.2.next.2

theorem start_eq (e : Environment) (ids : Supply) :
    start e ids = ((bare e ids).step .default).2 := rfl

theorem ahead_start (e : Environment) (ids : Supply) {bound : Nat}
    (hdistinct : ∀ i < bound, ∀ j < bound, ids.sequence i = ids.sequence j → i = j) :
    (start e ids).Ahead bound := by
  have hbare : (bare e ids).Ahead bound := fun i _ _ => rfl
  rw [start_eq]
  refine ((bare e ids).does_step .default).ahead hbare hdistinct ?_
  rintro stack ⟨⟩

theorem history_append {more : List Op} :
    k.history (ops ++ more) = k.history ops ++ (k.run ops).history more := by
  induction ops generalizing k with
  | nil => rfl
  | cons op ops ih => rw [List.cons_append, history, history, ih, run_cons, List.cons_append]

theorem run_append {more : List Op} : k.run (ops ++ more) = (k.run ops).run more :=
  List.foldl_append

/-- A default stack that is made gets an identifier under which nothing is stored. -/
theorem Fresh.stack?_eq_none {e : Environment} {ids : Supply}
    (h : (start e ids).Fresh (ops ++ [.default]))
    (hmissing : ((start e ids).run ops).store.presentDefault? = none) :
    ((start e ids).run ops).store.stack?
      (((start e ids).run ops).ids.sequence (((start e ids).run ops).ids.used + 2)) = none := by
  obtain ⟨stack, -, hmade⟩ := step_default_of_missing hmissing
  have hused : ((start e ids).run (ops ++ [.default])).ids.used
      = ((start e ids).run ops).ids.used + 3 := by
    rw [run_append]
    change (((start e ids).run ops).step .default).2.ids.used = _
    rw [hmade]
  have hsequence : (start e ids).ids.sequence = ids.sequence := by
    rw [start_eq, (does_step _ _).sequence_eq]
    rfl
  have hdistinct := h.distinct
  rw [Supply.Fresh, hused, sequence_run] at hdistinct
  have hnew := h.registered
  simp only [hused, history_append, List.forall_mem_append] at hnew
  refine Ahead.run (ahead_start e ids ?_) hdistinct hnew.1 _ ?_ ?_
  · rwa [hsequence] at hdistinct
  · omega
  · omega

theorem Fresh.unchanged_or_added {e : Environment} {ids : Supply} {d : StackModel} {k' : Keeper}
    (h : (start e ids).Fresh (ops ++ [.default]))
    (hdefault : ((start e ids).run ops).step .default = (.ok (some d), k')) :
    k' = (start e ids).run ops ∨ ((start e ids).run ops).store.stack? d.id = none
      ∧ k'.store.stackModels = ((start e ids).run ops).store.stackModels ++ [d] := by
  cases hmissing : ((start e ids).run ops).store.presentDefault? with
  | some stack =>
    rw [step_default_of_present hmissing] at hdefault
    cases hdefault
    exact .inl rfl
  | none =>
    obtain ⟨stack, hstack, hmade⟩ := step_default_of_missing hmissing
    rw [hmade] at hdefault
    cases hdefault
    have hnone : ((start e ids).run ops).store.stack? d.id = none :=
      hstack ▸ h.stack?_eq_none hmissing
    exact .inr ⟨hnone, Store.stackModels_registerStack hnone⟩

/-- Whatever is done with the stacks of a new workspace, to ask for the default stack gives one that
is found under its identifier afterwards. The store is left as it was, or gets this stack under an
identifier of its own. The identifier stays the same as long as no one deletes the stack under it,
and no more stacks are made than default stacks are deleted. To ask for a stack by its identifier
gives that stack if it is stored. The only other answer of the store is that there is none, and then
the answer is what it is for the default stack. -/
theorem heals_run (e : Environment) (ids : Supply) (earlier : List Op) :
    let k := (start e ids).run earlier
    ∃ d k', k.step .default = (.ok (some d), k')
      ∧ k'.step (.get d.id) = (.ok (some d), k')
      ∧ ((start e ids).Fresh (earlier ++ [.default]) →
          k' = k ∨ k.store.stack? d.id = none ∧ k'.store.stackModels = k.store.stackModels ++ [d])
      ∧ (∀ later, .delete d.id ∉ later →
          ∃ d', ((k'.run later).step .default).1 = .ok (some d') ∧ d'.id = d.id)
      ∧ (∀ later, k'.creations later ≤ k'.deletions later)
      ∧ k.step (.validate none) = k.step .default
      ∧ (∀ id stack, k.store.getStack id = .ok stack →
          k.step (.validate (some id)) = (.ok (some stack), k))
      ∧ ∀ id cause, k.store.getStack id = .error cause →
          cause = .notFound "Stack" id.toText
            ∧ k.step (.validate (some id)) = k.step .default := by
  intro k
  obtain ⟨d, k', hdefault, hpresent⟩ := exists_step_default k
  have hid : k'.defaultId? = some d.id := by rw [defaultId?, hpresent, Option.map_some]
  refine ⟨d, k', hdefault, ?_, fun h => h.unchanged_or_added hdefault, ?_, ?_,
    step_validate_of_missing rfl, ?_, ?_⟩
  · have hstored := (Store.presentDefault?_eq_some_iff.1 hpresent).2
    rw [step, Store.getStack_eq_ok_iff.2 hstored]
    rfl
  · intro later hlater
    have hkept := defaultId?_run hid hlater
    obtain ⟨d', hd', hsame⟩ := Option.map_eq_some_iff.1 hkept
    exact ⟨d', by rw [step_default_of_present hd'], hsame⟩
  · intro later
    have hcount := k'.creations_add_missing_le later
    have hmissing : k'.missing = 0 := by simp [missing, hid]
    omega
  · intro id stack hstack
    exact step_validate_of_stored (Store.getStack_eq_ok_iff.1 hstack)
  · intro id cause hcause
    obtain ⟨hnone, hcause⟩ := Store.getStack_eq_error_iff.1 hcause
    exact ⟨hcause, step_validate_of_missing hnone⟩

/-- The default stack is deleted, made anew because a stack is missing, and deleted again. A stack
under its first identifier does not take its place. -/
theorem heals_run_deleted :
    let other : StackModel := {
      id := Uuid.ofNat 4, name := "other", workspace := Uuid.ofNat 1, components := .ofList [] }
    let earlier : List Op := [.delete (Uuid.ofNat 4), .validate (some (Uuid.ofNat 4)),
      .register other, .delete (Uuid.ofNat 7)]
    let k := (start {} { sequence := Uuid.ofNat }).run earlier
    ∃ d k', k.step .default = (.ok (some d), k') ∧ d.id = Uuid.ofNat 10
      ∧ k'.store.stackModels = [other, d]
      ∧ k.step (.validate (some (Uuid.ofNat 7))) = (.ok (some d), k')
      ∧ k.step (.validate (some (Uuid.ofNat 4))) = (.ok (some other), k)
      ∧ ∃ d', ((k'.run [.delete (Uuid.ofNat 4)]).step .default).1 = .ok (some d')
        ∧ d'.id = Uuid.ofNat 10 := by
  intro other earlier k
  obtain ⟨d, k', hdefault, -, hnew, hkept, -, -, hstored, hmissing⟩ :=
    heals_run {} { sequence := Uuid.ofNat } earlier
  have hid : d.id = Uuid.ofNat 10 := by
    have hmade : (k.step .default).1.toOption.join.map (·.id) = some (Uuid.ofNat 10) := by rfl
    rw [hdefault] at hmade
    exact Option.some.inj hmade
  have hfresh : (start {} { sequence := Uuid.ofNat }).Fresh (earlier ++ [.default]) := by
    refine ⟨by unfold Supply.Fresh; decide, ?_⟩
    simp only [earlier, List.cons_append, List.nil_append, history, List.forall_mem_cons]
    refine ⟨nofun, nofun, ?_, nofun, nofun, nofun⟩
    rintro stack ⟨⟩ i hi hlt
    change 8 ≤ i at hi
    change i < 11 at hlt
    obtain rfl | rfl | rfl : i = 8 ∨ i = 9 ∨ i = 10 := by omega
    all_goals decide
  refine ⟨d, k', hdefault, hid, ?_, ?_, hstored _ other rfl, ?_⟩
  · obtain hsame | ⟨-, hstacks⟩ := hnew hfresh
    · have hused : (k.step .default).2.ids.used = 11 := by rfl
      rw [hdefault, hsame] at hused
      cases hused
    · exact hstacks
  · rw [(hmissing (Uuid.ofNat 7) _ rfl).2]
    exact hdefault
  · rw [← hid]
    exact hkept [.delete (Uuid.ofNat 4)] (by rw [hid]; decide)

end Keeper

end Pipework
