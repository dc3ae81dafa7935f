import Pipework.Config.SettingKey
import Pipework.Proofs.Text.Split

/-!
# Accepted settings keys

A key is accepted if it is one of the general keys, or if it names a component type and a flavor and
the stack has a component of that kind. Where no stack is known the form of the key is enough. Keys
are checked one by one, so a list of keys passes if and only if each key is accepted, and the first
key that is not is the one that is reported (`SettingKey.accepted_exactly`).
-/

namespace Pipework.SettingKey

/-- A key that names a component type and a flavor. -/
structure Addresses (key componentType flavor : String) : Prop where
  parts : key = componentType ++ "." ++ flavor
  known : componentType ∈ componentTypes
  nonempty : flavor ≠ ""
  chars : ∀ c ∈ flavor.toList, isFlavorChar c = true

/-- The key may stand in the settings of a pipeline that runs on a stack with these keys. -/
def Accepted (stackKeys : List String) (key : String) : Prop :=
  key ∈ general
  ∨ (∃ componentType flavor, Addresses key componentType flavor) ∧ key ∈ stackKeys

variable {key componentType flavor : String} {stackKeys : List String}

theorem dot_notMem_componentType (h : componentType ∈ componentTypes) :
    '.' ∉ componentType.toList := by
  revert componentType
  decide

theorem Addresses.splitAt_eq (h : Addresses key componentType flavor) :
    Text.splitAt '.' key.toList = [componentType.toList, flavor.toList] := by
  have hflavor : '.' ∉ flavor.toList := by
    intro hdot
    exact absurd (h.chars '.' hdot) (by decide)
  have htype : '.' ∉ componentType.toList := dot_notMem_componentType h.known
  apply Text.splitAt_eq_iff.2
  simp [h.parts, htype, hflavor]

theorem isFlavorChar_iff {c : Char} : isFlavorChar c = true ↔
    'a' ≤ c ∧ c ≤ 'z' ∨ '0' ≤ c ∧ c ≤ '9' ∨ c = '_' ∨ c = '-' := by
  delta isFlavorChar Char.isLower
  simp [Char.isDigit, Char.le_def, or_assoc]

/-- A key is split exactly if it names a component type and a flavor, and into these. -/
theorem split?_eq_some_iff :
    split? key = some (componentType, flavor) ↔ Addresses key componentType flavor := by
  constructor
  · intro h
    rw [split?] at h
    split at h
    · rename_i first second hpieces
      split at h
      · rename_i hvalid
        obtain ⟨hknown, hnonempty, hchars⟩ := hvalid
        cases h
        obtain ⟨-, -, hjoin⟩ := Text.splitAt_eq_iff.1 hpieces
        refine ⟨String.toList_inj.1 ?_, by simpa using hknown, by simpa using hnonempty,
          by simpa using hchars⟩
        simp [← hjoin]
      · cases h
    · cases h
  · intro h
    simp [split?, h.splitAt_eq, h.known, h.nonempty, List.all_eq_true.2 h.chars]

theorem isSome_split?_iff :
    (split? key).isSome ↔ ∃ componentType flavor, Addresses key componentType flavor := by
  simp [Option.isSome_iff_exists, split?_eq_some_iff]

theorem formError?_eq_none_iff : formError? key = none ↔
    key ∈ general ∨ ∃ componentType flavor, Addresses key componentType flavor := by
  simp [formError?, isSome_split?_iff, Decidable.or_iff_not_imp_left]

/-- No general key names a component. -/
theorem not_addresses_of_mem_general (h : key ∈ general) :
    ¬ ∃ componentType flavor, Addresses key componentType flavor := by
  rw [← isSome_split?_iff]
  revert key
  decide

/-! ## One key -/

/-- The key is a general one, or addresses a component, which the stack has if a stack is known. -/
def Allowed (stackKeys : Option (List String)) (key : String) : Prop :=
  key ∈ general
  ∨ (∃ componentType flavor, Addresses key componentType flavor) ∧ ∀ keys ∈ stackKeys, key ∈ keys

/-- What is said of a key that is not allowed: it has neither form, or the stack has no such
component. -/
inductive Refused (stackKeys : Option (List String)) (key : String) : String → Prop where
  | form (hgeneral : key ∉ general)
      (hform : ¬ ∃ componentType flavor, Addresses key componentType flavor) :
      Refused stackKeys key formReason
  | stack {keys : List String} (haddresses : ∃ componentType flavor,
      Addresses key componentType flavor) (hkeys : stackKeys = some keys) (hkey : key ∉ keys) :
      Refused stackKeys key stackReason

variable {known : Option (List String)}

theorem error?_of_general (h : key ∈ general) : error? known key = none := by
  have hsplit := mt isSome_split?_iff.1 (not_addresses_of_mem_general h)
  have hform := formError?_eq_none_iff.2 (.inl h)
  cases known <;> simp [error?, hform, hsplit]

theorem error?_of_addresses (h : ∃ componentType flavor, Addresses key componentType flavor) :
    error? known key = if ∀ keys ∈ known, key ∈ keys then none else some stackReason := by
  have hsplit := isSome_split?_iff.2 h
  have hform := formError?_eq_none_iff.2 (.inr h)
  cases known <;> simp [error?, hform, hsplit]

theorem error?_of_neither (hgeneral : key ∉ general)
    (hform : ¬ ∃ componentType flavor, Addresses key componentType flavor) :
    error? known key = some formReason := by
  have hsplit := mt isSome_split?_iff.1 hform
  have herror : formError? key = some formReason := by simp [formError?, hgeneral, hsplit]
  simp [error?, herror]

theorem error?_eq_some_iff {reason : String} :
    error? known key = some reason ↔ Refused known key reason := by
  constructor
  · intro h
    by_cases hgeneral : key ∈ general
    · rw [error?_of_general hgeneral] at h
      cases h
    · by_cases hform : ∃ componentType flavor, Addresses key componentType flavor
      · rw [error?_of_addresses hform] at h
        split at h
        · cases h
        · rename_i hmissing
          cases h
          cases known with
          | none => simp at hmissing
          | some keys => exact .stack hform rfl (by simpa using hmissing)
      · rw [error?_of_neither hgeneral hform] at h
        cases h
        exact .form hgeneral hform
  · rintro (⟨hgeneral, hform⟩ | ⟨hform, rfl, hkey⟩)
    · exact error?_of_neither hgeneral hform
    · rw [error?_of_addresses hform, if_neg (by simpa using hkey)]

/-- Nothing is wrong with a key exactly if it is allowed. -/
theorem error?_eq_none_iff : error? known key = none ↔ Allowed known key := by
  rw [Allowed]
  by_cases hgeneral : key ∈ general
  · simp [hgeneral, error?_of_general]
  · by_cases hform : ∃ componentType flavor, Addresses key componentType flavor
    · rw [error?_of_addresses hform]
      simp [hgeneral, hform]
    · rw [error?_of_neither hgeneral hform]
      simp [hgeneral, hform]

theorem accepted_iff : Accepted stackKeys key ↔ Allowed (some stackKeys) key := by
  simp [Accepted, Allowed]

/-! ## Lists of keys -/

variable {pipeline : String} {keys : List String}

theorem validate_eq_ok_iff_allowed :
    validate pipeline keys known = .ok () ↔ ∀ key ∈ keys, Allowed known key := by
  induction keys with
  | nil => simp [validate]
  | cons key keys ih =>
    rw [List.forall_mem_cons, ← error?_eq_none_iff, ← ih, validate]
    cases error? known key <;> simp

/-- A list of keys passes exactly if each key is accepted. -/
theorem validate_eq_ok_iff :
    validate pipeline keys (some stackKeys) = .ok () ↔ ∀ key ∈ keys, Accepted stackKeys key := by
  simp only [accepted_iff]
  exact validate_eq_ok_iff_allowed

/-- The first key that is refused decides. -/
theorem validate_eq_error_iff {cause : Error} : validate pipeline keys known = .error cause ↔
    ∃ before key after reason, keys = before ++ key :: after ∧ (∀ k ∈ before, Allowed known k)
      ∧ Refused known key reason
      ∧ cause = .configuration (.unknownSettingKey pipeline key reason) := by
  induction keys with
  | nil => simp [validate]
  | cons first keys ih =>
    rw [validate]
    cases herror : error? known first with
    | some reason =>
      have hrefused := error?_eq_some_iff.1 herror
      constructor
      · intro h
        cases h
        exact ⟨[], first, keys, reason, rfl, by simp, hrefused, rfl⟩
      · rintro ⟨before, key, after, other, hkeys, hbefore, hother, rfl⟩
        cases before with
        | nil =>
          obtain ⟨rfl, rfl⟩ := List.cons.inj hkeys
          rw [error?_eq_some_iff.2 hother] at herror
          cases herror
          rfl
        | cons k before =>
          obtain ⟨rfl, -⟩ := List.cons.inj hkeys
          rw [error?_eq_none_iff.2 (hbefore _ List.mem_cons_self)] at herror
          cases herror
    | none =>
      have hallowed := error?_eq_none_iff.1 herror
      rw [ih]
      constructor
      · rintro ⟨before, key, after, reason, rfl, hbefore, h⟩
        exact ⟨first :: before, key, after, reason, rfl,
          List.forall_mem_cons.2 ⟨hallowed, hbefore⟩, h⟩
      · rintro ⟨before, key, after, reason, hkeys, hbefore, hrefused, rfl⟩
        cases before with
        | nil =>
          obtain ⟨rfl, rfl⟩ := List.cons.inj hkeys
          rw [error?_eq_some_iff.2 hrefused] at herror
          cases herror
        | cons k before =>
          obtain ⟨rfl, rfl⟩ := List.cons.inj hkeys
          exact ⟨before, key, after, reason, rfl, (List.forall_mem_cons.1 hbefore).2, hrefused,
            rfl⟩

/-- A key is split exactly into a known component type before a dot and a flavor of small letters,
digits, underscores and hyphens after it. A list of keys passes exactly if each key is a general one
or splits this way and is among the keys of the stack, where one is known. Otherwise the first key
that does not is reported, with what is wrong with it. -/
theorem accepted_exactly (pipeline : String) (keys : List String)
    (known : Option (List String)) :
    (∀ key componentType flavor, split? key = some (componentType, flavor) ↔
      key = componentType ++ "." ++ flavor ∧ componentType ∈ componentTypes ∧ flavor ≠ ""
        ∧ ∀ c ∈ flavor.toList, 'a' ≤ c ∧ c ≤ 'z' ∨ '0' ≤ c ∧ c ≤ '9' ∨ c = '_' ∨ c = '-')
    ∧ (∀ key, Allowed known key ↔ key ∈ general
        ∨ (∃ parts, split? key = some parts) ∧ ∀ stackKeys ∈ known, key ∈ stackKeys)
    ∧ (validate pipeline keys known = .ok () ↔ ∀ key ∈ keys, Allowed known key)
    ∧ ((¬ ∀ key ∈ keys, Allowed known key) → ∃ before key after reason,
        keys = before ++ key :: after ∧ (∀ k ∈ before, Allowed known k)
          ∧ Refused known key reason ∧ validate pipeline keys known
            = .error (.configuration (.unknownSettingKey pipeline key reason))) := by
  refine ⟨?_, ?_, validate_eq_ok_iff_allowed, ?_⟩
  · intro key componentType flavor
    rw [split?_eq_some_iff]
    simp only [← isFlavorChar_iff]
    constructor
    · intro h
      exact ⟨h.parts, h.known, h.nonempty, h.chars⟩
    · rintro ⟨hparts, hknown, hnonempty, hchars⟩
      exact ⟨hparts, hknown, hnonempty, hchars⟩
  · intro key
    rw [Allowed, ← isSome_split?_iff, Option.isSome_iff_exists]
  · intro hnot
    cases hresult : validate pipeline keys known with
    | ok => exact absurd (validate_eq_ok_iff_allowed.1 hresult) hnot
    | error cause =>
      obtain ⟨before, key, after, reason, hkeys, hbefore, hrefused, rfl⟩ :=
        validate_eq_error_iff.1 hresult
      exact ⟨before, key, after, reason, hkeys, hbefore, hrefused, rfl⟩

/-- A flavor that the stack does not have stands before a misspelled key, and is reported. -/
theorem accepted_exactly_foreign :
    split? "orchestrator.kubernetes" = some ("orchestrator", "kubernetes")
    ∧ ∃ before after, ["docker", "orchestrator.kubernetes", "dockr"]
        = before ++ "orchestrator.kubernetes" :: after
      ∧ (∀ k ∈ before, Allowed (some ["orchestrator.local"]) k)
      ∧ Refused (some ["orchestrator.local"]) "orchestrator.kubernetes" stackReason := by
  obtain ⟨hsplit, hallowed, -, hfirst⟩ := accepted_exactly "training"
    ["docker", "orchestrator.kubernetes", "dockr"] (some ["orchestrator.local"])
  have hnot : ¬ ∀ key ∈ ["docker", "orchestrator.kubernetes", "dockr"],
      Allowed (some ["orchestrator.local"]) key := by
    intro h
    rcases (hallowed _).1 (h "orchestrator.kubernetes" (by simp)) with hgeneral | ⟨-, hstack⟩
    · exact absurd hgeneral (by decide)
    · exact absurd (hstack _ rfl) (by decide)
  obtain ⟨before, key, after, reason, hkeys, hbefore, hrefused, hresult⟩ := hfirst hnot
  have hchars : "kubernetes".toList.all isFlavorChar = true := by decide
  have hflavor := fun c hc => isFlavorChar_iff.1 (List.all_eq_true.1 hchars c hc)
  refine ⟨(hsplit _ _ _).2 ⟨rfl, by decide, by decide, hflavor⟩, before, after, ?_⟩
  cases hresult
  exact ⟨hkeys, hbefore, hrefused⟩

end Pipework.SettingKey
