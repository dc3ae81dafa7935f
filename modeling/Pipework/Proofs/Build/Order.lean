import Pipework.Deployment.BuildRequirement
import Pipework.Proofs.Json.Injective
import Pipework.Proofs.Text.Append

/-!
# The order of build requirements

Requirements are sorted by key and step before they are digested, and the sorting is stable: those
that ask for the same image twice stay in the order in which they were given. So a checksum depends
on the order of the requirements where these ask for one image with different settings, and
`BuildRequirement.checksum_perm_iff` says that it does not otherwise.
-/

namespace Pipework.BuildRequirement

variable {a b c : BuildRequirement} {l m : List BuildRequirement}

/-! ## Sorting -/

/-- The requirements are for one image: they have the same key, and the same step or none. -/
def SameImage (a b : BuildRequirement) : Prop := a.key = b.key ∧ a.step = b.step

instance (a b : BuildRequirement) : Decidable (a.SameImage b) :=
  inferInstanceAs (Decidable (a.key = b.key ∧ a.step = b.step))

theorem SameImage.symm (h : a.SameImage b) : b.SameImage a := ⟨h.1.symm, h.2.symm⟩

theorem stepLe_total (s t : Option String) : stepLe s t || stepLe t s := by
  cases s <;> cases t <;> simp [stepLe, String.le_total]

theorem stepLe_trans {s t u : Option String} (h : stepLe s t) (h' : stepLe t u) : stepLe s u := by
  cases s with
  | none => rfl
  | some s =>
    cases t with
    | none => cases h
    | some t =>
      cases u with
      | none => cases h'
      | some u =>
        exact decide_eq_true (String.le_trans (of_decide_eq_true h) (of_decide_eq_true h'))

theorem stepLe_antisymm {s t : Option String} (h : stepLe s t) (h' : stepLe t s) : s = t := by
  cases s with
  | none =>
    cases t with
    | none => rfl
    | some t => cases h'
  | some s =>
    cases t with
    | none => cases h
    | some t => rw [String.le_antisymm (of_decide_eq_true h) (of_decide_eq_true h')]

theorem le_iff : le a b ↔ a.key ≤ b.key ∧ (a.key = b.key → stepLe a.step b.step) := by
  by_cases h : a.key = b.key <;> simp [le, h]

theorem le_total (a b : BuildRequirement) : le a b || le b a := by
  rw [Bool.or_eq_true, le_iff, le_iff]
  by_cases h : a.key = b.key
  · simpa [h] using stepLe_total a.step b.step
  · simpa [h, Ne.symm h] using String.le_total a.key b.key

theorem le_trans (a b c : BuildRequirement) (h : le a b) (h' : le b c) : le a c := by
  rw [le_iff] at *
  refine ⟨String.le_trans h.1 h'.1, fun hac => ?_⟩
  have hab : a.key = b.key := String.le_antisymm h.1 (hac ▸ h'.1)
  exact stepLe_trans (h.2 hab) (h'.2 (hab ▸ hac))

/-- Only requirements for one image are in either order. -/
theorem sameImage_iff : a.SameImage b ↔ le a b ∧ le b a := by
  constructor
  · rintro ⟨hkey, hstep⟩
    have hrefl : stepLe b.step b.step := by simpa using stepLe_total b.step b.step
    simp [le_iff, hkey, hstep, hrefl]
  · rintro ⟨h, h'⟩
    rw [le_iff] at h h'
    have hkey := String.le_antisymm h.1 h'.1
    exact ⟨hkey, stepLe_antisymm (h.2 hkey) (h'.2 hkey.symm)⟩

/-- Requirements for one image compare in the same way with all others. -/
theorem SameImage.le_eq (h : a.SameImage b) : le a = le b := by
  obtain ⟨hab, hba⟩ := sameImage_iff.1 h
  funext c
  rw [Bool.eq_iff_iff]
  exact ⟨le_trans b a c hba, le_trans a b c hab⟩

/-- The first requirement is put before all those that do not come before it. -/
theorem mergeSort_cons (a : BuildRequirement) (l : List BuildRequirement) :
    (a :: l).mergeSort le
      = (l.mergeSort le).filter (fun b => !le a b) ++ a :: (l.mergeSort le).filter (le a) := by
  obtain ⟨before, after, hcons, hrest, hbefore⟩ := List.mergeSort_cons le_trans le_total a l
  have hsorted := List.pairwise_mergeSort le_trans le_total (a :: l)
  rw [hcons, List.pairwise_append, List.pairwise_cons] at hsorted
  have hafter : ∀ b ∈ after, le a b := hsorted.2.1.1
  have hless : before.filter (fun b => !le a b) = before := List.filter_eq_self.2 hbefore
  have hless' : after.filter (fun b => !le a b) = [] :=
    List.filter_eq_nil_iff.2 fun b hb => by simp [hafter b hb]
  have hmore : before.filter (le a) = [] :=
    List.filter_eq_nil_iff.2 fun b hb => by simpa using hbefore b hb
  have hmore' : after.filter (le a) = after := List.filter_eq_self.2 hafter
  rw [hcons, hrest, List.filter_append, List.filter_append, hless, hless', hmore, hmore',
    List.append_nil, List.nil_append]

/-- Requirements for one image stay in the order in which they were given. -/
theorem mergeSort_cons_cons (h : a.SameImage b) (l : List BuildRequirement) :
    (a :: b :: l).mergeSort le
      = (l.mergeSort le).filter (fun c => !le a c) ++ a :: b :: (l.mergeSort le).filter (le a) := by
  have hab : le a b := (sameImage_iff.1 h).1
  rw [mergeSort_cons a, mergeSort_cons b, ← h.le_eq]
  simp [List.filter_append, List.filter_filter, hab]

/-! ## Texts in either order -/

/-- Everything that is digested for the images. -/
def imagesText (l : List BuildRequirement) : String :=
  String.join ((l.mergeSort le).map identityText)

/-- Requirements whose texts come to the same in either order: their settings are the same, or they
are numbers whose digits happen to match. -/
def Interchangeable (a b : BuildRequirement) : Prop :=
  a.settings = b.settings
  ∨ ∃ m n, a.settings = .num m ∧ b.settings = .num n
    ∧ a.identityText ++ b.identityText = b.identityText ++ a.identityText

theorem SameImage.eq_of_settings (h : a.SameImage b) (hsettings : a.settings = b.settings) :
    a = b := by
  cases a
  cases b
  obtain ⟨rfl, rfl⟩ := h
  cases hsettings
  rfl

theorem SameImage.interchangeable_iff (h : a.SameImage b) : a.Interchangeable b
    ↔ a.identityText ++ b.identityText = b.identityText ++ a.identityText := by
  constructor
  · rintro (hsettings | ⟨_, _, _, _, htext⟩)
    · rw [h.eq_of_settings hsettings]
    · exact htext
  · intro htext
    have hlist := htext
    simp only [identityText, h.1, h.2, String.append_assoc, String.append_right_inj] at hlist
    have hsettings := congrArg String.toList hlist
    rw [String.toList_append (s := a.settings.compact),
      String.toList_append (s := b.settings.compact)] at hsettings
    rcases Json.eq_or_num_of_compact_append hsettings with ⟨hsame, -⟩ | ⟨m, n, hm, hn⟩
    · exact .inl hsame
    · exact .inr ⟨m, n, hm, hn, htext⟩

/-- A text that comes to the same before and after each of several others does so before and after
all of them. -/
theorem join_append_comm {s : String} {texts : List String} (h : ∀ t ∈ texts, t ++ s = s ++ t) :
    String.join texts ++ s = s ++ String.join texts := by
  induction texts with
  | nil => simp
  | cons t texts ih =>
    rw [List.forall_mem_cons] at h
    rw [String.join_cons, String.append_assoc, ih h.2, ← String.append_assoc, h.1,
      String.append_assoc]

/-- Two sorted lists of the same requirements differ only in the order of those for one image. -/
theorem join_eq_of_perm (hl : l.Pairwise (le · ·)) (hm : m.Pairwise (le · ·)) (h : l.Perm m)
    (hties : ∀ a ∈ l, ∀ b ∈ l, a.SameImage b → a.Interchangeable b) :
    String.join (l.map identityText) = String.join (m.map identityText) := by
  induction l generalizing m with
  | nil => rw [h.nil_eq]
  | cons a l ih =>
    obtain ⟨before, after, rfl⟩ := List.append_of_mem (h.subset List.mem_cons_self)
    have hrest : l.Perm (before ++ after) := (h.trans List.perm_middle).cons_inv
    obtain ⟨hfirst, hl⟩ := List.pairwise_cons.1 hl
    have hties' := ih hl (hm.sublist (by simp)) hrest fun b hb c hc =>
      hties b (List.mem_cons_of_mem a hb) c (List.mem_cons_of_mem a hc)
    -- What stands before `a` in `m` is no greater than `a` and, as `a` comes first in `l`, no less.
    have hbefore : ∀ t ∈ before.map identityText, t ++ a.identityText = a.identityText ++ t := by
      intro t ht
      obtain ⟨b, hb, rfl⟩ := List.mem_map.1 ht
      have hbl : b ∈ l := hrest.symm.subset (List.mem_append_left after hb)
      have hba : le b a := (List.pairwise_append.1 hm).2.2 b hb a List.mem_cons_self
      have himage : b.SameImage a := sameImage_iff.2 ⟨hba, hfirst b hbl⟩
      exact himage.interchangeable_iff.1
        (hties b (List.mem_cons_of_mem a hbl) a List.mem_cons_self himage)
    simp only [List.map_append, List.map_cons, String.join_append, String.join_cons] at hties' ⊢
    rw [hties', ← String.append_assoc, ← join_append_comm hbefore, String.append_assoc]

/-! ## Checksums -/

theorem checksumText_eq (l : List BuildRequirement) (downloadsCode : Bool) :
    checksumText l downloadsCode
      = imagesText l ++ if downloadsCode then "code:1" else "code:0" := rfl

/-- Two requirements for one image, given in both orders, can be told by the text only if they are
not interchangeable. -/
theorem interchangeable_of_imagesText (h : a.SameImage b)
    (htext : imagesText (a :: b :: l) = imagesText (b :: a :: l)) : a.Interchangeable b := by
  rw [imagesText, imagesText, mergeSort_cons_cons h, mergeSort_cons_cons h.symm, h.le_eq] at htext
  simp only [List.map_append, List.map_cons, String.join_append, String.join_cons,
    String.append_right_inj] at htext
  rw [← String.append_assoc, ← String.append_assoc, String.append_left_inj] at htext
  exact h.interchangeable_iff.2 htext

/-- What is digested does not depend on the order of the requirements if and only if those that are
for one image have the same settings, unless these are numbers whose digits happen to match. In that
case neither does the checksum. -/
theorem checksum_perm_iff (l : List BuildRequirement) (downloadsCode : Bool) :
    ((∀ m, m.Perm l → checksumText m downloadsCode = checksumText l downloadsCode)
      ↔ ∀ a ∈ l, ∀ b ∈ l, a.SameImage b → a.Interchangeable b)
    ∧ ((∀ a ∈ l, ∀ b ∈ l, a.SameImage b → a.Interchangeable b) →
      ∀ m, m.Perm l → checksum m downloadsCode = checksum l downloadsCode) := by
  have hsame : (∀ a ∈ l, ∀ b ∈ l, a.SameImage b → a.Interchangeable b) →
      ∀ m, m.Perm l → checksumText m downloadsCode = checksumText l downloadsCode := by
    intro hties m hm
    have hsorted : (l.mergeSort le).Perm (m.mergeSort le) :=
      (List.mergeSort_perm l le).trans (hm.symm.trans (List.mergeSort_perm m le).symm)
    have hjoin := join_eq_of_perm (List.pairwise_mergeSort le_trans le_total l)
      (List.pairwise_mergeSort le_trans le_total m) hsorted
      (by simpa only [List.mem_mergeSort] using hties)
    rw [checksumText_eq, checksumText_eq, imagesText, imagesText, hjoin]
  refine ⟨⟨fun h a ha b hb himage => ?_, hsame⟩, fun hties m hm => ?_⟩
  · by_cases hab : a = b
    · exact .inl (by rw [hab])
    · have hb' : b ∈ l.erase a := (List.mem_erase_of_ne (Ne.symm hab)).2 hb
      have hperm : (a :: b :: (l.erase a).erase b).Perm l :=
        ((List.perm_cons_erase hb').symm.cons a).trans (List.perm_cons_erase ha).symm
      have htext := (h _ hperm).trans (h _ ((List.Perm.swap a b _).trans hperm)).symm
      rw [checksumText_eq, checksumText_eq, String.append_left_inj] at htext
      exact interchangeable_of_imagesText himage htext
  · rw [checksum, checksum, hsame hties m hm]

/-- An image of the whole pipeline. -/
def orchestrator (settings : Json) : BuildRequirement where
  key := "orchestrator"
  settings

/-- An image of one step. -/
def stepOperator (step : String) (settings : Json) : BuildRequirement where
  key := "step_operator"
  step
  settings

/-- One image is asked for with two settings, in one order and in the other. -/
theorem not_forall_checksum_perm :
    ¬ ∀ (l m : List BuildRequirement) (downloadsCode : Bool), m.Perm l →
      checksum m downloadsCode = checksum l downloadsCode := by
  intro h
  have hsame := h [orchestrator (.obj []), orchestrator .null]
    [orchestrator .null, orchestrator (.obj [])] false (.swap _ _ _)
  have hobject : checksumText [orchestrator (.obj []), orchestrator .null] false
      = "orchestrator\x7b\x7dorchestratornullcode:0" := by
    rw [checksumText, List.mergeSort_of_pairwise (by decide)]
    rfl
  have hnull : checksumText [orchestrator .null, orchestrator (.obj [])] false
      = "orchestratornullorchestrator\x7b\x7dcode:0" := by
    rw [checksumText, List.mergeSort_of_pairwise (by decide)]
    rfl
  rw [checksum, checksum, hobject, hnull] at hsame
  exact absurd hsame (by decide +kernel)

/-- An image that is asked for twice with the same settings may stand anywhere. -/
theorem checksum_perm_iff_repeated :
    let l := [orchestrator .null, stepOperator "trainer" (.obj []), orchestrator .null]
    (∀ a ∈ l, ∀ b ∈ l, a.SameImage b → a.Interchangeable b)
    ∧ checksum [stepOperator "trainer" (.obj []), orchestrator .null, orchestrator .null] true
      = checksum l true := by
  intro l
  have hties : ∀ a ∈ l, ∀ b ∈ l, a.SameImage b → a.Interchangeable b := by
    have hsettings : ∀ a ∈ l, ∀ b ∈ l, a.SameImage b → a.settings = b.settings := by decide
    exact fun a ha b hb himage => .inl (hsettings a ha b hb himage)
  exact ⟨hties, (checksum_perm_iff l true).2 hties _ (.swap _ _ _)⟩

end Pipework.BuildRequirement
