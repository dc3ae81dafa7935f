import Mathlib.Data.List.Basic
import Pipework.Graph.Basic
import Std.Data.String.ToNat

/-!
# Free ids

The id of a new invocation is the first free one of its candidates. These are the base, and then the
base with the numbers from two on; with the base taken, a number is tried only if all below it are
taken.
-/

namespace Pipework.Graph

variable {g : Graph} {base id : String} {m n : Nat}

@[simp] theorem suffixed_inj : suffixed base m = suffixed base n ↔ m = n := by
  constructor
  · intro h
    have hchars := congrArg String.toList h
    simp only [suffixed, String.toList_append] at hchars
    exact Nat.repr_inj.1 (String.toList_injective (List.append_cancel_left hchars))
  · rintro rfl
    rfl

@[simp] theorem suffixed_ne_base : suffixed base n ≠ base := by
  intro h
  have hlength := congrArg String.length h
  have hseparator : "_".length = 1 := rfl
  simp only [suffixed, String.length_append] at hlength
  omega

/-- The search for a number finds the least one that is free, if there is one below its end. -/
theorem freeSuffix?_eq_some_iff {taken : String → Bool} {count : Nat} :
    freeSuffix? taken base count n = some id ↔
      ∃ m, n ≤ m ∧ m < n + count ∧ id = suffixed base m ∧ taken id = false
        ∧ ∀ l, n ≤ l → l < m → taken (suffixed base l) = true := by
  induction count generalizing n with
  | zero =>
    constructor
    · intro h
      cases h
    · rintro ⟨m, hle, hlt, -⟩
      omega
  | succ count ih =>
    rw [freeSuffix?]
    by_cases htaken : taken (suffixed base n) = true
    · rw [if_pos htaken, ih]
      constructor
      · rintro ⟨m, hle, hlt, hid, hfree, hbelow⟩
        refine ⟨m, by omega, by omega, hid, hfree, fun l hl hlm => ?_⟩
        rcases Nat.eq_or_lt_of_le hl with rfl | hl
        · exact htaken
        · exact hbelow l hl hlm
      · rintro ⟨m, hle, hlt, rfl, hfree, hbelow⟩
        have hne : n ≠ m := by
          rintro rfl
          rw [htaken] at hfree
          cases hfree
        exact ⟨m, by omega, by omega, rfl, hfree, fun l hl hlm => hbelow l (by omega) hlm⟩
    · rw [if_neg htaken, Option.some.injEq]
      constructor
      · rintro rfl
        exact ⟨n, by omega, by omega, rfl, Bool.eq_false_iff.2 htaken, fun l hl hln => by omega⟩
      · rintro ⟨m, hle, -, rfl, -, hbelow⟩
        rcases Nat.eq_or_lt_of_le hle with rfl | hlt
        · rfl
        · exact absurd (hbelow n (Nat.le_refl n) hlt) htaken

/-- The base if it is free, and otherwise, if that is allowed, the base with the least number from
two on that makes it free. -/
inductive FirstFree (taken : String → Prop) (base : String) (allowSuffix : Bool) : String → Prop
  | base (free : ¬ taken base) : FirstFree taken base allowSuffix base
  | suffixed {n : Nat} (clash : taken base) (allowed : allowSuffix = true) (two_le : 2 ≤ n)
      (free : ¬ taken (suffixed base n))
      (least : ∀ m, 2 ≤ m → m < n → taken (suffixed base m)) :
      FirstFree taken base allowSuffix (suffixed base n)

namespace FirstFree

variable {taken : String → Prop} {allowSuffix : Bool}

theorem not_taken (h : FirstFree taken base allowSuffix id) : ¬ taken id := by
  cases h with
  | base free => exact free
  | suffixed clash allowed two_le free least => exact free

theorem unique {id' : String} (h : FirstFree taken base allowSuffix id)
    (h' : FirstFree taken base allowSuffix id') : id = id' := by
  cases h with
  | base free =>
    cases h' with
    | base => rfl
    | suffixed clash => exact absurd clash free
  | @suffixed n clash allowed two_le free least =>
    cases h' with
    | base free => exact absurd clash free
    | @suffixed n' _ _ two_le' free' least' =>
      have hle : n' ≤ n := Nat.le_of_not_lt fun hlt => free (least' n two_le hlt)
      have hge : n ≤ n' := Nat.le_of_not_lt fun hlt => free' (least n' two_le' hlt)
      rw [Nat.le_antisymm hle hge]

end FirstFree

/-- A graph gives the first free id, as long as its number is below the bound. -/
theorem freeId_eq_ok_iff {allowSuffix : Bool} : g.freeId base allowSuffix = .ok id ↔
    FirstFree (g.contains · = true) base allowSuffix id
      ∧ (id = base ∨ ∃ n < suffixBound, id = suffixed base n) := by
  have hbound : 2 + (suffixBound - 2) = suffixBound := rfl
  constructor
  · intro h
    rw [freeId] at h
    split at h
    · rename_i hfree
      cases h
      exact ⟨.base (by simpa using hfree), .inl rfl⟩
    · rename_i hclash
      split at h
      · cases h
      · rename_i hallowed
        split at h
        · rename_i hsearch
          cases h
          obtain ⟨n, hle, hlt, rfl, hfree, hbelow⟩ := freeSuffix?_eq_some_iff.1 hsearch
          exact ⟨.suffixed (by simpa using hclash) (by simpa using hallowed) hle
            (Bool.eq_false_iff.1 hfree) hbelow, .inr ⟨n, hbound ▸ hlt, rfl⟩⟩
        · cases h
  · rintro ⟨hfirst, hnumber⟩
    cases hfirst with
    | base free => rw [freeId, if_pos (by simpa using free)]
    | @suffixed n clash allowed two_le free least =>
      have hlt : n < suffixBound := by
        rcases hnumber with hbase | ⟨m, hlt, hid⟩
        · exact absurd hbase suffixed_ne_base
        · rwa [suffixed_inj.1 hid]
      have hsearch : freeSuffix? g.contains base (suffixBound - 2) 2 = some (suffixed base n) :=
        freeSuffix?_eq_some_iff.2
          ⟨n, two_le, hbound.symm ▸ hlt, rfl, Bool.eq_false_iff.2 free, least⟩
      rw [freeId, if_neg (by simpa using clash), if_neg (by simpa using allowed), hsearch]

end Pipework.Graph
