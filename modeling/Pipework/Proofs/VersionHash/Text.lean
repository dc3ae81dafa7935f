import Pipework.Identity.VersionHash
import Pipework.Proofs.Json.Compact
import Pipework.Proofs.Text.Append
import Pipework.Proofs.Traversal

/-!
# Texts of versions

The text that is digested for a version hash begins with the spec, and where the spec ends is never
in doubt. After it stand the source texts of the pipeline and of its steps without marks between
them. So the text does not show where one source text ends and the next one begins, and different
versions may have the same text.
-/

namespace Pipework.Spec

variable {s t : Spec} {pipeline pipeline' code code' m n : String}
  {source? source?' : String → Option String} {texts texts' : List String}

/-- The source text of each step, in the order of the steps. -/
def stepSources (s : Spec) (source? : String → Option String) : List (Option String) :=
  s.steps.map fun step => source? step.id

/-- The source texts are there if and only if every step has one. -/
theorem sourceTexts_eq_ok_iff :
    sourceTexts pipeline source? s.steps = .ok texts ↔ s.stepSources source? = texts.map some := by
  rw [sourceTexts, mapM_eq_ok_iff, stepSources, ← forall₂_eq_iff]
  congr! 2 with step text
  cases source? step.id <;> simp

/-- Where every step has a source text, there is a version hash. -/
theorem exists_versionHash (pipeline code : String) (h : s.stepSources source? = texts.map some) :
    ∃ hash, s.versionHash pipeline code source? = .ok hash := by
  rw [versionHash, versionText, sourceTexts_eq_ok_iff.2 h]
  exact ⟨_, rfl⟩

/-- Everything that is digested after the spec. -/
def sourceText (s : Spec) (code : String) (source? : String → Option String) : String :=
  code ++ String.join (s.stepSources source?).reduceOption

theorem sourceText_of_texts (h : s.stepSources source? = texts.map some) :
    s.sourceText code source? = code ++ String.join texts := by
  have htexts : (texts.map some).reduceOption = texts := by
    change (texts.map some).filterMap id = texts
    simp
  rw [sourceText, h, htexts]

/-- The text of a version of a recent format: the spec, and then all source texts. -/
theorem versionText_eq_ok_iff (hs : versionAtLeast s.version sourceVersion = true) :
    s.versionText pipeline code source? = .ok m
      ↔ (∃ texts : List String, s.stepSources source? = texts.map some)
        ∧ m = s.identityText ++ s.sourceText code source? := by
  simp only [versionText, hs, if_true, bind_eq_ok_iff, sourceTexts_eq_ok_iff]
  constructor
  · rintro ⟨texts, htexts, hm⟩
    cases hm
    exact ⟨⟨texts, htexts⟩, by rw [sourceText_of_texts htexts, String.append_assoc]⟩
  · rintro ⟨⟨texts, htexts⟩, rfl⟩
    exact ⟨texts, htexts, by rw [sourceText_of_texts htexts, ← String.append_assoc]; rfl⟩

theorem versionText_of_texts (pipeline code : String)
    (hs : versionAtLeast s.version sourceVersion = true)
    (h : s.stepSources source? = texts.map some) :
    s.versionText pipeline code source? = .ok (s.identityText ++ s.sourceText code source?) :=
  (versionText_eq_ok_iff hs).2 ⟨⟨texts, h⟩, rfl⟩

/-- The text of a spec is the text of an object, so what follows it can be told from it. -/
theorem identityText_append_inj {u v : String} (h : s.identityText ++ u = t.identityText ++ v) :
    s.identityText = t.identityText ∧ u = v := Json.compact_obj_append_inj h

/-- Two pipelines of the same version: their specs, their source texts and those of each of their
steps are the same. -/
structure SameVersion (s t : Spec) (code code' : String)
    (source? source?' : String → Option String) : Prop where
  identityText : s.identityText = t.identityText
  code : code = code'
  stepSources : s.stepSources source? = t.stepSources source?'

/-- The lengths of the source texts, and so the places where they are put together. -/
def sourceLayout (s : Spec) (code : String) (source? : String → Option String) :
    Nat × List (Option Nat) :=
  (code.length, (s.stepSources source?).map (Option.map String.length))

theorem SameVersion.sourceLayout_eq (h : SameVersion s t code code' source? source?') :
    s.sourceLayout code source? = t.sourceLayout code' source?' := by
  rw [sourceLayout, sourceLayout, h.code, h.stepSources]

/-- Source texts that are put together at the same places are taken apart in the same way. -/
theorem sources_inj_of_layout (hs : s.stepSources source? = texts.map some)
    (ht : t.stepSources source?' = texts'.map some)
    (hlayout : s.sourceLayout code source? = t.sourceLayout code' source?')
    (h : s.sourceText code source? = t.sourceText code' source?') :
    code = code' ∧ s.stepSources source? = t.stepSources source?' := by
  rw [sourceText_of_texts hs, sourceText_of_texts ht] at h
  simp only [sourceLayout, Prod.mk.injEq, hs, ht, List.map_map] at hlayout
  obtain ⟨hcode, hsteps⟩ := hlayout
  obtain ⟨rfl, hjoin⟩ := Text.append_inj_of_length_left h hcode
  have htexts : texts = texts' := by
    refine (Text.join_map_append_inj (f := id) (P := fun _ => True) (u := "") (v := "") ?_
      (fun _ _ => trivial) (fun _ _ => trivial) hsteps ?_).1
    · intro a b s t _ _ hlength heq
      exact Text.append_inj_of_length_left heq (Option.some.inj hlength)
    · rw [List.map_id, List.map_id, hjoin]
  exact ⟨rfl, by rw [hs, ht, htexts]⟩

/-- Two pipelines are digested to the same version if and only if their specs come to the same text
and so do all their source texts put together. Then they are the same version if and only if the
source texts are put together at the same places. -/
theorem versionText_eq_iff (hs : versionAtLeast s.version sourceVersion = true)
    (ht : versionAtLeast t.version sourceVersion = true)
    (hm : s.versionText pipeline code source? = .ok m)
    (hn : t.versionText pipeline' code' source?' = .ok n) :
    (m.toUTF8 = n.toUTF8 ↔ s.identityText = t.identityText
      ∧ s.sourceText code source? = t.sourceText code' source?')
    ∧ (m.toUTF8 = n.toUTF8 → (SameVersion s t code code' source? source?'
      ↔ s.sourceLayout code source? = t.sourceLayout code' source?')) := by
  have hbytes : m.toUTF8 = n.toUTF8 ↔ m = n := String.toByteArray_inj
  obtain ⟨⟨texts, htexts⟩, rfl⟩ := (versionText_eq_ok_iff hs).1 hm
  obtain ⟨⟨texts', htexts'⟩, rfl⟩ := (versionText_eq_ok_iff ht).1 hn
  rw [hbytes]
  refine ⟨⟨identityText_append_inj, fun ⟨hspec, hsource⟩ => by rw [hspec, hsource]⟩, fun h => ?_⟩
  obtain ⟨hspec, hsource⟩ := identityText_append_inj h
  refine ⟨SameVersion.sourceLayout_eq, fun hlayout => ?_⟩
  obtain ⟨hcode, hsteps⟩ := sources_inj_of_layout htexts htexts' hlayout hsource
  exact ⟨hspec, hcode, hsteps⟩

/-- The spec of a pipeline that loads a dataset. -/
def loading : Spec where
  version := currentVersion
  steps := [{ source := { modulePath := "steps.data", attributeName := "loader" }
              predecessors := []
              inputs := .empty
              id := "loader" }]

def trainingSource : String := "def training():\n    loader()\n"

def helperSource : String := "def rows():\n    return 100\n"

def loaderSource : String := "def loader():\n    return rows()\n"

theorem sourceText_loading (code text : String) :
    loading.sourceText code (fun _ => some text) = code ++ text := rfl

/-- A helper that stands after the pipeline is taken for one that stands before the step. -/
theorem versionText_eq_iff_moved_helper :
    let source? (_ : String) := some (helperSource ++ loaderSource)
    let source?' (_ : String) := some loaderSource
    versionAtLeast loading.version sourceVersion = true
    ∧ ∃ m n, loading.versionText "training" trainingSource source? = .ok m
      ∧ loading.versionText "training" (trainingSource ++ helperSource) source?' = .ok n
      ∧ m.toUTF8 = n.toUTF8
      ∧ ¬ SameVersion loading loading trainingSource (trainingSource ++ helperSource)
          source? source?' := by
  intro source? source?'
  have hversion : versionAtLeast loading.version sourceVersion = true := by decide +kernel
  have hm := versionText_of_texts "training" trainingSource hversion
    (show loading.stepSources source? = [helperSource ++ loaderSource].map some from rfl)
  have hn := versionText_of_texts "training" (trainingSource ++ helperSource) hversion
    (show loading.stepSources source?' = [loaderSource].map some from rfl)
  have hiff := versionText_eq_iff hversion hversion hm hn
  have hbytes := hiff.1.2 ⟨rfl, by rw [sourceText_loading, sourceText_loading, String.append_assoc]⟩
  exact ⟨hversion, _, _, hm, hn, hbytes, fun h => absurd h.code (by decide)⟩

/-- A helper stands once at the end of the source text of a pipeline, and once at the beginning of
that of its only step. -/
theorem not_forall_sameVersion :
    ¬ ∀ (s t : Spec) (pipeline pipeline' code code' m n : String)
        (source? source?' : String → Option String),
      versionAtLeast s.version sourceVersion = true →
      versionAtLeast t.version sourceVersion = true →
      s.versionText pipeline code source? = .ok m →
      t.versionText pipeline' code' source?' = .ok n → m.toUTF8 = n.toUTF8 →
      SameVersion s t code code' source? source?' := by
  intro h
  have hversion : versionAtLeast loading.version sourceVersion = true := by decide +kernel
  have htext (code text : String) : loading.versionText "training" code (fun _ => some text)
      = .ok (loading.identityText ++ (code ++ text)) :=
    versionText_of_texts "training" code hversion (show _ = [text].map some from rfl)
  have hsame := h loading loading "training" "training" trainingSource
    (trainingSource ++ helperSource) _ _ (fun _ => some (helperSource ++ loaderSource))
    (fun _ => some loaderSource) hversion hversion (htext _ _) (htext _ _)
    (by rw [String.append_assoc])
  exact absurd hsame.code (by decide)

end Pipework.Spec
