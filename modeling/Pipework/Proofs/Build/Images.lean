import Pipework.Proofs.Build.Order

/-!
# Which images a checksum stands for

Key, step and settings of the requirements are put together without marks before they are digested,
so different images may have the same checksum. Where all settings are objects and no name has a
brace, an image is told but for the place where its key ends and the name of its step begins.
`BuildRequirement.checksumText_eq_iff` says when two lists of requirements come to the same text,
and when they are then for the same images.
-/

namespace Pipework.BuildRequirement

variable {a b : BuildRequirement} {l m : List BuildRequirement} {s t : String}

/-! ## Texts that are cut at the same places -/

/-- The lengths of the texts of a requirement. -/
def layout (r : BuildRequirement) : Nat × Option Nat × Nat :=
  (r.key.length, r.step.map String.length, r.settings.compact.length)

/-- The lengths of all texts, in the order in which they are digested. -/
def layouts (l : List BuildRequirement) : List (Nat × Option Nat × Nat) :=
  (l.mergeSort le).map layout

theorem identityText_append_inj (hlayout : a.layout = b.layout)
    (h : a.identityText ++ s = b.identityText ++ t) : a = b ∧ s = t := by
  obtain ⟨hkey, hrest⟩ := Prod.mk.inj hlayout
  obtain ⟨hstep, hsettings⟩ := Prod.mk.inj hrest
  simp only [identityText, String.append_assoc] at h
  obtain ⟨keys, h⟩ := Text.append_inj_of_length_left h hkey
  have hlength : (a.step.getD "").length = (b.step.getD "").length := by
    rw [← Option.getD_map String.length, ← Option.getD_map String.length, hstep]
  obtain ⟨steps, h⟩ := Text.append_inj_of_length_left h hlength
  obtain ⟨settings, h⟩ := Text.append_inj_of_length_left h hsettings
  have himage : a.SameImage b := by
    refine ⟨keys, ?_⟩
    cases ha : a.step <;> cases hb : b.step <;> simp_all
  exact ⟨himage.eq_of_settings (Json.compact_inj settings), h⟩

/-- Requirements whose texts are cut at the same places are the same. -/
theorem perm_of_layouts (hlayouts : layouts l = layouts m) (h : imagesText l = imagesText m) :
    l.Perm m := by
  have hsorted : l.mergeSort le = m.mergeSort le := by
    refine (Text.join_map_append_inj (f := identityText) (P := fun _ => True) (u := "") (v := "") ?_
      (fun _ _ => trivial) (fun _ _ => trivial) hlayouts ?_).1
    · exact fun _ _ hlayout htext => identityText_append_inj hlayout htext
    · exact congrArg (· ++ "") h
  exact (List.mergeSort_perm l le).symm.trans (hsorted ▸ List.mergeSort_perm m le)

/-! ## The same requirements in another order -/

/-- No image is asked for with two different numbers for settings. -/
def NumbersAgree (l : List BuildRequirement) : Prop :=
  ∀ a ∈ l, ∀ b ∈ l, a.SameImage b →
    ∀ x y, a.settings = .num x → b.settings = .num y → x = y

/-- A requirement can be told from the texts of a list that it comes first in. -/
theorem SameImage.eq_of_text (h : a.SameImage b)
    (hnumbers : ∀ x y, a.settings = .num x → b.settings = .num y → x = y)
    (htext : a.identityText ++ s = b.identityText ++ t) : a = b := by
  simp only [identityText, h.1, h.2, String.append_assoc, String.append_right_inj] at htext
  have hlist := congrArg String.toList htext
  rw [String.toList_append, String.toList_append] at hlist
  rcases Json.eq_or_num_of_compact_append hlist with ⟨hsame, -⟩ | ⟨x, y, hx, hy⟩
  · exact h.eq_of_settings hsame
  · exact h.eq_of_settings (by rw [hx, hy, hnumbers x y hx hy])

/-- Sorted lists of the same requirements that come to the same text are the same. -/
theorem eq_of_perm (hl : l.Pairwise (le · ·)) (hm : m.Pairwise (le · ·)) (h : l.Perm m)
    (hnumbers : NumbersAgree l)
    (htext : String.join (l.map identityText) = String.join (m.map identityText)) : l = m := by
  induction l generalizing m with
  | nil => rw [h.nil_eq]
  | cons a l ih =>
    cases m with
    | nil => exact absurd h.eq_nil (List.cons_ne_nil a l)
    | cons b m =>
      rw [List.pairwise_cons] at hl hm
      have hb : b ∈ a :: l := h.symm.subset List.mem_cons_self
      -- Both come first, so neither comes before the other.
      have himage : a.SameImage b := by
        rcases List.mem_cons.1 (h.subset List.mem_cons_self) with rfl | ha
        · exact ⟨rfl, rfl⟩
        · rcases List.mem_cons.1 hb with rfl | hb
          · exact ⟨rfl, rfl⟩
          · exact sameImage_iff.2 ⟨hl.1 b hb, hm.1 a ha⟩
      simp only [List.map_cons, String.join_cons] at htext
      obtain rfl := himage.eq_of_text (hnumbers a List.mem_cons_self b hb himage) htext
      rw [ih hl.2 hm.2 h.cons_inv ?_ ((String.append_right_inj _).1 htext)]
      exact fun x hx y hy => hnumbers x (List.mem_cons_of_mem a hx) y (List.mem_cons_of_mem a hy)

/-- The same requirements in another order are cut at the same places if they come to the same
text. -/
theorem layouts_of_perm (h : l.Perm m) (hnumbers : NumbersAgree l)
    (htext : imagesText l = imagesText m) : layouts l = layouts m := by
  have hsorted : (l.mergeSort le).Perm (m.mergeSort le) :=
    (List.mergeSort_perm l le).trans (h.trans (List.mergeSort_perm m le).symm)
  have heq := eq_of_perm (List.pairwise_mergeSort le_trans le_total l)
    (List.pairwise_mergeSort le_trans le_total m) hsorted
    (by simpa only [NumbersAgree, List.mem_mergeSort] using hnumbers) htext
  rw [layouts, layouts, heq]

/-! ## Settings that mark the end of a name -/

/-- The text before the settings. -/
def name (r : BuildRequirement) : String := r.key ++ r.step.getD ""

/-- The settings are an object, and no brace comes before them. -/
def Marked (r : BuildRequirement) : Prop :=
  '\x7b' ∉ r.name.toList ∧ ∃ members, r.settings = .obj members

theorem identityText_eq (r : BuildRequirement) :
    r.identityText = r.name ++ r.settings.compact := rfl

theorem Marked.exists_toList (h : a.Marked) : ∃ cs, a.settings.compact.toList = '\x7b' :: cs := by
  obtain ⟨-, members, hsettings⟩ := h
  exact ⟨_, hsettings ▸ Json.toList_compact_obj members⟩

theorem Marked.identityText_append_ne (h : a.Marked) : a.identityText ++ s ≠ "" := by
  obtain ⟨cs, hcs⟩ := h.exists_toList
  intro hempty
  have hlist := congrArg String.toList hempty
  simp [identityText_eq, hcs] at hlist

theorem Marked.append_inj (ha : a.Marked) (hb : b.Marked)
    (h : a.identityText ++ s = b.identityText ++ t) :
    (a.name, a.settings) = (b.name, b.settings) ∧ s = t := by
  obtain ⟨cs, hcs⟩ := ha.exists_toList
  obtain ⟨ds, hds⟩ := hb.exists_toList
  have hlist := congrArg String.toList h
  simp only [identityText_eq, String.toList_append, hcs, hds, List.append_assoc,
    List.cons_append] at hlist
  have hname := String.toList_inj.1 (Text.cons_inj_of_notMem_left ha.1 hb.1 hlist).1
  simp only [identityText_eq, hname, String.append_assoc, String.append_right_inj] at h
  have hrest := congrArg String.toList h
  rw [String.toList_append, String.toList_append] at hrest
  rcases Json.eq_or_num_of_compact_append hrest with ⟨hsettings, hst⟩ | ⟨x, -, hx, -⟩
  · exact ⟨by rw [hname, hsettings], String.toList_inj.1 hst⟩
  · obtain ⟨-, members, hmembers⟩ := ha
    cases hmembers.symm.trans hx

/-- Names and settings are told one after the other. -/
theorem map_eq_of_join (hl : ∀ r ∈ l, r.Marked) (hm : ∀ r ∈ m, r.Marked)
    (h : String.join (l.map identityText) = String.join (m.map identityText)) :
    l.map (fun r => (r.name, r.settings)) = m.map fun r => (r.name, r.settings) := by
  induction l generalizing m with
  | nil =>
    cases m with
    | nil => rfl
    | cons b m =>
      exact absurd h.symm (by simpa using (hm b List.mem_cons_self).identityText_append_ne)
  | cons a l ih =>
    cases m with
    | nil => exact absurd h (by simpa using (hl a List.mem_cons_self).identityText_append_ne)
    | cons b m =>
      rw [List.forall_mem_cons] at hl hm
      simp only [List.map_cons, String.join_cons] at h
      obtain ⟨hsame, hrest⟩ := hl.1.append_inj hm.1 h
      rw [List.map_cons, List.map_cons, hsame, ih hl.2 hm.2 hrest]

theorem join_identityText (l : List BuildRequirement) : String.join (l.map identityText)
    = String.join ((l.map fun r => (r.name, r.settings)).map fun e => e.1 ++ e.2.compact) := by
  rw [List.map_map]
  rfl

/-! ## Equal texts -/

theorem checksumText_inj {d e : Bool} :
    checksumText l d = checksumText m e ↔ d = e ∧ imagesText l = imagesText m := by
  constructor
  · intro h
    rw [checksumText_eq, checksumText_eq] at h
    obtain ⟨himages, hflag⟩ :=
      Text.append_inj_of_length_right h (by cases d <;> cases e <;> decide)
    refine ⟨?_, himages⟩
    revert hflag
    cases d <;> cases e <;> decide
  · rintro ⟨rfl, h⟩
    rw [checksumText_eq, checksumText_eq, h]

/-- Two lists of requirements are digested to the same if and only if they download code alike and
their texts come to the same. Then they are the same requirements if the texts are cut at the same
places, and only then, as long as no image is asked for with two numbers for settings. Where objects
mark the ends of the names, nothing but these names and objects can be told from the text. -/
theorem checksumText_eq_iff (l m : List BuildRequirement) (d e : Bool) :
    ((checksumText l d).toUTF8 = (checksumText m e).toUTF8 ↔ d = e ∧ imagesText l = imagesText m)
    ∧ (imagesText l = imagesText m →
      (layouts l = layouts m → l.Perm m) ∧ (NumbersAgree l → l.Perm m → layouts l = layouts m))
    ∧ ((∀ r ∈ l, r.Marked) → (∀ r ∈ m, r.Marked) → (imagesText l = imagesText m
      ↔ (l.mergeSort le).map (fun r => (r.name, r.settings))
        = (m.mergeSort le).map fun r => (r.name, r.settings))) := by
  refine ⟨String.toByteArray_inj.trans checksumText_inj, fun h => ?_, fun hl hm => ⟨?_, ?_⟩⟩
  · exact ⟨fun hlayouts => perm_of_layouts hlayouts h,
      fun hnumbers hperm => layouts_of_perm hperm hnumbers h⟩
  · exact map_eq_of_join (by simpa using hl) (by simpa using hm)
  · intro hsame
    rw [imagesText, imagesText, join_identityText, join_identityText, hsame]

/-- An image of the whole pipeline under the key and the name of a step put together. -/
def joinedOperator (step : String) (settings : Json) : BuildRequirement where
  key := "step_operator" ++ step
  settings

/-- The name of a step is taken for the end of a key. -/
theorem checksumText_eq_iff_joined :
    let l := [orchestrator (.obj []), stepOperator "trainer" (.obj [])]
    let m := [orchestrator (.obj []), joinedOperator "trainer" (.obj [])]
    (∀ r ∈ l, r.Marked) ∧ (∀ r ∈ m, r.Marked) ∧ NumbersAgree l
    ∧ (checksumText l true).toUTF8 = (checksumText m true).toUTF8 ∧ ¬ l.Perm m := by
  intro l m
  have hl : ∀ r ∈ l, r.Marked := by simp [l, Marked, orchestrator, stepOperator, name]
  have hm : ∀ r ∈ m, r.Marked := by simp [m, Marked, orchestrator, joinedOperator, name]
  have hnumbers : NumbersAgree l := by simp [l, NumbersAgree, orchestrator, stepOperator]
  have hsortedl : l.mergeSort le = l := List.mergeSort_of_pairwise (by decide)
  have hsortedm : m.mergeSort le = m := List.mergeSort_of_pairwise (by decide)
  obtain ⟨hbytes, hperm, hmarked⟩ := checksumText_eq_iff l m true true
  have himages : imagesText l = imagesText m := by
    refine (hmarked hl hm).2 ?_
    rw [hsortedl, hsortedm]
    rfl
  refine ⟨hl, hm, hnumbers, hbytes.2 ⟨rfl, himages⟩, fun h => ?_⟩
  have hlayouts := (hperm himages).2 hnumbers h
  rw [layouts, layouts, hsortedl, hsortedm] at hlayouts
  exact absurd hlayouts (by decide)

/-- An image for a step, and one for the whole pipeline whose key goes on with the step's name. -/
theorem not_forall_perm :
    ¬ ∀ (l m : List BuildRequirement) (d e : Bool),
      (checksumText l d).toUTF8 = (checksumText m e).toUTF8 → d = e ∧ l.Perm m := by
  intro h
  have hbytes : (checksumText [stepOperator "trainer" (.obj [])] false).toUTF8
      = (checksumText [joinedOperator "trainer" (.obj [])] false).toUTF8 := by
    rw [checksumText, checksumText, List.mergeSort_singleton, List.mergeSort_singleton]
    rfl
  have hsame := List.singleton_perm_singleton.1 (h _ _ _ _ hbytes).2
  exact absurd hsame (by decide)

end Pipework.BuildRequirement
