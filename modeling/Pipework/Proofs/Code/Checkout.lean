import Pipework.Code.Checkout
import Pipework.Proofs.Code.Path

/-!
# Where references lead

The reference that a clean checkout gives for a directory of code leads to that directory where its
components go on from those of the root, and to the root of the checkout where they do not
(`target_codeReference`). It is to lead to the code exactly where the code lies in the checkout.
Components are compared before two dots lead back, so the two can differ
(`confined_codeReference_iff`): then the reference leads out of the checkout, or misses code that
lies in it.
-/

namespace Pipework.Checkout

open Pipework.Path

variable {c : Checkout} {source : String}

/-- The directory that a reference leads to from the root of the checkout. -/
def target (c : Checkout) (r : CodeReference) : List String :=
  directory (joined c.root r.subdirectory)

/-- Whether a reference for the code in a directory stays in the checkout, leads to the code where
that lies in the checkout, and to the root of the checkout where it does not. -/
structure Confined (c : Checkout) (source : String) (r : CodeReference) : Prop where
  below : directory c.root <+: c.target r
  inside : directory c.root <+: directory source → c.target r = directory source
  outside : ¬ directory c.root <+: directory source → c.target r = directory c.root

theorem components_joined_subdirectory (hroot : IsAbsolute c.root) (hsource : IsAbsolute source) :
    components (joined c.root (c.subdirectory source)) =
      if components c.root <+: components source then components source
      else components c.root := by
  rw [subdirectory]
  cases hinside : stripPrefix? (components c.root) (components source) with
  | none =>
    have hnot : ¬ components c.root <+: components source := by
      rintro ⟨rest, hrest⟩
      rw [stripPrefix?_eq_some_iff.2 hrest] at hinside
      cases hinside
    rw [if_neg hnot]
    exact components_joined_dot hroot
  | some inside =>
    have hrest : components c.root ++ inside = components source :=
      stripPrefix?_eq_some_iff.1 hinside
    rw [if_pos ⟨inside, hrest⟩, ← hrest]
    cases inside with
    | nil =>
      rw [List.append_nil]
      exact components_joined_dot hroot
    | cons first further =>
      -- The root is behind, so what is left stood between slashes.
      refine components_joined_join hroot fun c hc => ?_
      rw [components_of_isAbsolute hroot, components_of_isAbsolute hsource, List.cons_append,
        List.cons.injEq] at hrest
      exact between_of_mem_inner (hrest.2 ▸ List.mem_append_right _ hc)

/-- The components alone decide where a reference leads. -/
theorem target_codeReference (hclean : c.dirty = false) (hroot : IsAbsolute c.root)
    (hsource : IsAbsolute source) :
    ∃ r, c.codeReference? source = some r ∧ c.target r =
      if components c.root <+: components source then directory source else directory c.root := by
  refine ⟨_, if_neg (by simp [hclean]), ?_⟩
  rw [target, directory, components_joined_subdirectory hroot hsource]
  split <;> rfl

variable {r : CodeReference}

/-- A reference that goes by the components is confined if these tell where the code lies. -/
theorem confined_iff (htarget : c.target r =
    if components c.root <+: components source then directory source else directory c.root) :
    c.Confined source r ↔
      (components c.root <+: components source ↔ directory c.root <+: directory source)
        ∨ directory source = directory c.root := by
  by_cases hgoes : components c.root <+: components source
  · rw [if_pos hgoes] at htarget
    constructor
    · intro h
      exact .inl (iff_of_true hgoes (htarget ▸ h.below))
    · intro h
      have hlies : directory c.root <+: directory source := by
        rcases h with h | h
        · exact h.1 hgoes
        · rw [h]
      exact ⟨htarget ▸ hlies, fun _ => htarget, fun hnot => absurd hlies hnot⟩
  · rw [if_neg hgoes] at htarget
    constructor
    · intro h
      by_cases hlies : directory c.root <+: directory source
      · exact .inr ((h.inside hlies).symm.trans htarget)
      · exact .inl (iff_of_false hgoes hlies)
    · intro h
      refine ⟨htarget ▸ List.prefix_rfl, fun hlies => ?_, fun _ => htarget⟩
      rcases h with h | h
      · exact absurd (h.2 hlies) hgoes
      · rw [htarget, h]

/-- A clean checkout gives a reference for any code. It leads out of the checkout exactly where the
components of the code go on from those of the root although the code does not lie below it. It does
what it is to do exactly where the components tell whether the code lies in the checkout, or the
code lies at its root, so in particular where neither path leads back. -/
theorem confined_codeReference_iff (hclean : c.dirty = false) (hroot : IsAbsolute c.root)
    (hsource : IsAbsolute source) :
    ∃ r, c.codeReference? source = some r
      ∧ (directory c.root <+: c.target r ↔
        (components c.root <+: components source → directory c.root <+: directory source))
      ∧ (c.Confined source r ↔
        (components c.root <+: components source ↔ directory c.root <+: directory source)
          ∨ directory source = directory c.root)
      ∧ (IsStraight c.root → IsStraight source → c.Confined source r) := by
  obtain ⟨r, hr, htarget⟩ := target_codeReference hclean hroot hsource
  have hconfined := confined_iff htarget
  refine ⟨r, hr, ?_, hconfined, fun hroot' hsource' => ?_⟩
  · rw [htarget]
    by_cases hgoes : components c.root <+: components source <;> simp [hgoes]
  · exact hconfined.2 (.inl (components_prefix_iff hroot hsource hroot' hsource'))

end Pipework.Checkout

namespace Pipework.Sample

open Pipework.Path

/-- A clean checkout of a repository. -/
def clean : Checkout where
  repository := .ofNat 7
  root := "/work/repo"
  commit := "3f2a9c1"
  dirty := false

/-- Code beside the checkout, reached through its root, and code in it. -/
theorem confined_codeReference_iff_beside :
    (∃ r, clean.codeReference? "/work/repo/../other" = some r
      ∧ ¬ directory clean.root <+: clean.target r
      ∧ ¬ clean.Confined "/work/repo/../other" r)
    ∧ ∃ r, clean.codeReference? "/work/repo/pipelines/training" = some r
      ∧ clean.Confined "/work/repo/pipelines/training" r := by
  have hroot : IsAbsolute clean.root := by decide
  constructor
  · have hgoes : components clean.root <+: components "/work/repo/../other" := by decide +kernel
    have hlies : ¬ directory clean.root <+: directory "/work/repo/../other" := by decide +kernel
    have hsource : IsAbsolute "/work/repo/../other" := by decide
    obtain ⟨r, hr, hbelow, -, -⟩ := Checkout.confined_codeReference_iff rfl hroot hsource
    have hout : ¬ directory clean.root <+: clean.target r := fun h => hlies (hbelow.1 h hgoes)
    exact ⟨r, hr, hout, fun h => hout h.below⟩
  · have hsource : IsAbsolute "/work/repo/pipelines/training" := by decide
    obtain ⟨r, hr, -, -, hconfined⟩ := Checkout.confined_codeReference_iff rfl hroot hsource
    exact ⟨r, hr, hconfined (by decide +kernel) (by decide +kernel)⟩

/-- The reference for code beside the checkout leads out of it. -/
theorem not_forall_confined_codeReference :
    ¬ ∀ (c : Checkout) (source : String), c.dirty = false → IsAbsolute c.root → IsAbsolute source →
      ∃ r, c.codeReference? source = some r ∧ c.Confined source r := by
  intro h
  obtain ⟨r, hr, hconfined⟩ := h clean "/work/repo/../other" rfl (by decide) (by decide)
  cases hr
  exact absurd hconfined.below (by decide +kernel)

end Pipework.Sample
