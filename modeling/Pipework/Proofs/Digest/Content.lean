import Pipework.Proofs.Document.Uuid
import Pipework.Proofs.Json.Injective
import Pipework.Step.Artifact

/-!
# What content hashes stand for

The content hash of an external artifact is a digest of the compact text of its value, or of its id
written as a JSON text if it is stored already. Values are told by these texts, and so are ids. But
nothing in the text says which of the two it is: a value that is the text of an id has the content
hash of the artifact that is stored under that id (`ExternalArtifact.hashedText_eq_iff`).
-/

namespace Pipework.ExternalArtifact

variable {a b : ExternalArtifact} {id : Uuid} {v w : Json}

/-- What is digested for the content hash. -/
def hashedText (a : ExternalArtifact) : String := a.identity.compact

theorem contentHash_resolve (a : ExternalArtifact) :
    a.resolve.contentHash = Digest.sha256Hex a.hashedText := rfl

theorem hashedText_inj : a.hashedText = b.hashedText ↔ a.identity = b.identity :=
  ⟨Json.compact_inj, congrArg Json.compact⟩

theorem identity_of_value (h : a.content = .value v) : a.identity = v := by
  rw [identity, h]

theorem identity_of_stored (h : a.content = .stored id) : a.identity = .str id.toText := by
  rw [identity, h]

/-- Both refer to one stored artifact, or both carry values with the same compact text. -/
inductive SameContent (a b : ExternalArtifact) : Prop where
  | stored (id : Uuid) (left : a.content = .stored id) (right : b.content = .stored id)
  | value (v w : Json) (left : a.content = .value v) (right : b.content = .value w)
      (text : v.compact = w.compact)

/-- The first one carries a text, which is the id of the other one. -/
def Spells (a b : ExternalArtifact) : Prop :=
  ∃ id, a.content = .value (.str id.toText) ∧ b.content = .stored id

theorem SameContent.identity_eq (h : a.SameContent b) : a.identity = b.identity := by
  cases h with
  | stored id left right => rw [identity_of_stored left, identity_of_stored right]
  | value v w left right text =>
    rw [identity_of_value left, identity_of_value right, Json.compact_inj text]

theorem Spells.identity_eq (h : a.Spells b) : a.identity = b.identity := by
  obtain ⟨id, hvalue, hstored⟩ := h
  rw [identity_of_value hvalue, identity_of_stored hstored]

theorem Spells.not_sameContent (h : a.Spells b) : ¬ a.SameContent b := by
  obtain ⟨id, hvalue, hstored⟩ := h
  rintro (⟨_, left, -⟩ | ⟨_, _, -, right, -⟩)
  · cases hvalue.symm.trans left
  · cases hstored.symm.trans right

theorem SameContent.symm (h : a.SameContent b) : b.SameContent a := by
  cases h with
  | stored id left right => exact .stored id right left
  | value v w left right text => exact .value w v right left text.symm

theorem sameContent_or_spells (h : a.identity = b.identity) :
    a.SameContent b ∨ a.Spells b ∨ b.Spells a := by
  cases ha : a.content with
  | value v =>
    rw [identity_of_value ha] at h
    cases hb : b.content with
    | value w =>
      rw [identity_of_value hb] at h
      exact .inl (.value v w ha hb (congrArg Json.compact h))
    | stored id =>
      rw [identity_of_stored hb] at h
      exact .inr (.inl ⟨id, h ▸ ha, hb⟩)
  | stored id =>
    rw [identity_of_stored ha] at h
    cases hb : b.content with
    | value w =>
      rw [identity_of_value hb] at h
      exact .inr (.inr ⟨id, h ▸ hb, ha⟩)
    | stored id' =>
      rw [identity_of_stored hb] at h
      obtain rfl := Uuid.toText_inj.1 (Json.str.inj h)
      exact .inl (.stored id ha hb)

/-- The content hash is a digest of a text, and two artifacts have the same text if and only if they
have the same content or one of them spells the id of the other one. Then they have the same content
if and only if neither spells the id of the other. -/
theorem hashedText_eq_iff (a b : ExternalArtifact) :
    (a.resolve.contentHash = Digest.sha256Hex a.hashedText)
    ∧ (a.hashedText.toUTF8 = b.hashedText.toUTF8
      ↔ a.SameContent b ∨ a.Spells b ∨ b.Spells a)
    ∧ (a.hashedText.toUTF8 = b.hashedText.toUTF8 →
      (a.SameContent b ↔ ¬ (a.Spells b ∨ b.Spells a))) := by
  have hbytes : a.hashedText.toUTF8 = b.hashedText.toUTF8 ↔ a.identity = b.identity :=
    String.toByteArray_inj.trans hashedText_inj
  rw [hbytes]
  refine ⟨contentHash_resolve a, ⟨sameContent_or_spells, ?_⟩, fun h => ⟨?_, ?_⟩⟩
  · rintro (hsame | hspells | hspells)
    · exact hsame.identity_eq
    · exact hspells.identity_eq
    · exact hspells.identity_eq.symm
  · rintro hsame (hspells | hspells)
    · exact hspells.not_sameContent hsame
    · exact hspells.not_sameContent hsame.symm
  · intro hspells
    exact (sameContent_or_spells h).resolve_right hspells

/-- A dataset that is stored already. -/
def storedDataset : ExternalArtifact := { content := .stored (.ofNat 1) }

/-- The id of the dataset as a value. -/
def spelledDataset : ExternalArtifact :=
  { content := .value (.str "00000000-0000-0000-0000-000000000001") }

theorem spells_dataset : spelledDataset.Spells storedDataset := by
  refine ⟨.ofNat 1, ?_, rfl⟩
  have htext : (Uuid.ofNat 1).toText = "00000000-0000-0000-0000-000000000001" := by
    decide +kernel
  rw [htext]
  rfl

/-- The value has the content hash of the dataset. -/
theorem hashedText_eq_iff_dataset :
    spelledDataset.hashedText.toUTF8 = storedDataset.hashedText.toUTF8
    ∧ spelledDataset.resolve.contentHash = storedDataset.resolve.contentHash
    ∧ ¬ spelledDataset.SameContent storedDataset := by
  obtain ⟨hspelled, htext, hsame⟩ := hashedText_eq_iff spelledDataset storedDataset
  obtain ⟨hstored, -, -⟩ := hashedText_eq_iff storedDataset spelledDataset
  have hequal := htext.2 (.inr (.inl spells_dataset))
  refine ⟨hequal, ?_, fun h => (hsame hequal).1 h (.inl spells_dataset)⟩
  rw [hspelled, hstored, String.toByteArray_inj.1 hequal]

/-- Two artifacts may have the same text without having the same content. -/
theorem not_forall_sameContent :
    ¬ ∀ a b : ExternalArtifact, a.hashedText.toUTF8 = b.hashedText.toUTF8 → a.SameContent b := by
  intro h
  have htext := congrArg (fun v => (Json.compact v).toUTF8) spells_dataset.identity_eq
  exact spells_dataset.not_sameContent (h spelledDataset storedDataset htext)

end Pipework.ExternalArtifact
