import Pipework.Config.Hook
import Pipework.Proofs.Text.Replace
import Pipework.Proofs.Text.Split

/-!
# The paths of sources

The path of a source is two or more names with dots between them. It is read in one way, with the
last name as the attribute (`Source.ofPath_eq_ok_iff`), so paths and sources that are written with
names go over into each other (`Source.parsed_exactly`). Hooks that are given as paths are stored
under such paths.
-/

namespace Pipework.Source

/-! ## Names -/

/-- A letter of the ASCII alphabet or an underscore. -/
def IsLetter (c : Char) : Prop := 'a' ≤ c ∧ c ≤ 'z' ∨ 'A' ≤ c ∧ c ≤ 'Z' ∨ c = '_'

/-- A letter or an ASCII digit. -/
def IsWordChar (c : Char) : Prop := IsLetter c ∨ '0' ≤ c ∧ c ≤ '9'

/-- A letter, and letters and digits after it. -/
def IsName (text : String) : Prop :=
  ∃ first rest, text.toList = first :: rest ∧ IsLetter first ∧ ∀ c ∈ rest, IsWordChar c

/-- At least so many names with dots between them. -/
def Dotted (least : Nat) (path : String) : Prop :=
  ∃ names : List String, least ≤ names.length ∧ (∀ name ∈ names, IsName name)
    ∧ path = ".".intercalate names

instance : DecidablePred IsLetter := fun c =>
  inferInstanceAs (Decidable ('a' ≤ c ∧ c ≤ 'z' ∨ 'A' ≤ c ∧ c ≤ 'Z' ∨ c = '_'))

instance : DecidablePred IsWordChar := fun c =>
  inferInstanceAs (Decidable (IsLetter c ∨ '0' ≤ c ∧ c ≤ '9'))

variable {c : Char} {text path last : String} {names : List String} {s : Source}

theorem isNameStart_iff : isNameStart c = true ↔ IsLetter c := by
  simp only [isNameStart, IsLetter]
  delta Char.isAlpha Char.isUpper Char.isLower
  simp [Char.le_def]
  grind

theorem isNamePart_iff : isNamePart c = true ↔ IsWordChar c := by
  simp only [isNamePart, IsWordChar, ← isNameStart_iff]
  delta isNameStart Char.isAlphanum
  simp [Char.isDigit, Char.le_def]
  grind

theorem isIdentifier_iff : isIdentifier text.toList = true ↔ IsName text := by
  rw [IsName]
  cases text.toList with
  | nil => simp [isIdentifier]
  | cons first rest => simp [isIdentifier, isNameStart_iff, isNamePart_iff]

theorem IsName.isWordChar (h : IsName text) (hc : c ∈ text.toList) : IsWordChar c := by
  obtain ⟨first, rest, htext, hfirst, hrest⟩ := h
  rw [htext] at hc
  rcases List.mem_cons.1 hc with rfl | hc
  · exact .inl hfirst
  · exact hrest c hc

/-- What is neither a letter nor a digit stands in no name. -/
theorem IsName.notMem (h : IsName text) (hc : ¬ IsWordChar c) : c ∉ text.toList :=
  fun hmem => hc (h.isWordChar hmem)

/-! ## Paths -/

theorem toList_intercalate_dot :
    (".".intercalate names).toList = ['.'].intercalate (names.map String.toList) :=
  String.toList_intercalate

theorem intercalate_concat (hne : names ≠ []) :
    ".".intercalate (names ++ [last]) = ".".intercalate names ++ "." ++ last := by
  rw [String.intercalate_append_of_ne_nil hne (List.cons_ne_nil _ _), String.intercalate_singleton]

theorem splitAt_intercalate (hne : names ≠ []) (h : ∀ name ∈ names, IsName name) :
    Text.splitAt '.' (".".intercalate names).toList = names.map String.toList := by
  refine Text.splitAt_eq_iff.2 ⟨by simpa using hne, ?_, toList_intercalate_dot.symm⟩
  intro piece hpiece
  obtain ⟨name, hname, rfl⟩ := List.mem_map.1 hpiece
  exact (h name hname).notMem (by decide)

/-- A text whose pieces between the dots are identifiers is made of names. -/
theorem exists_names_of_splitAt (h : (Text.splitAt '.' path.toList).all isIdentifier = true) :
    ∃ names : List String, Text.splitAt '.' path.toList = names.map String.toList
      ∧ (∀ name ∈ names, IsName name) ∧ path = ".".intercalate names := by
  have hpieces : Text.splitAt '.' path.toList
      = ((Text.splitAt '.' path.toList).map .ofList).map String.toList := by simp
  refine ⟨(Text.splitAt '.' path.toList).map .ofList, hpieces, ?_, ?_⟩
  · intro name hname
    obtain ⟨piece, hpiece, rfl⟩ := List.mem_map.1 hname
    rw [← isIdentifier_iff, String.toList_ofList]
    exact List.all_eq_true.1 h piece hpiece
  · apply String.toList_inj.1
    rw [toList_intercalate_dot, ← hpieces]
    exact Text.intercalate_splitAt.symm

/-- A path with its last name apart. -/
theorem exists_concat_of_two_le (h : 2 ≤ names.length) :
    ∃ front last, front ≠ [] ∧ names = front ++ [last] := by
  rcases List.eq_nil_or_concat names with rfl | ⟨front, last, rfl⟩
  · simp at h
  · refine ⟨front, last, ?_, List.concat_eq_append⟩
    rintro rfl
    simp at h

/-- Names with dots between them are read with the last one as the attribute. -/
theorem ofPath_intercalate (hne : names ≠ []) (hnames : ∀ name ∈ names, IsName name)
    (hlast : IsName last) : ofPath (".".intercalate names ++ "." ++ last)
      = .ok { modulePath := ".".intercalate names, attributeName := last } := by
  -- A name has no dot, so the path is split where the names were joined.
  have hall : ∀ name ∈ names ++ [last], IsName name := by
    simpa [or_imp, forall_and] using ⟨hnames, hlast⟩
  have hsplit : Text.splitAt '.' (".".intercalate names ++ "." ++ last).toList
      = names.map String.toList ++ [last.toList] := by
    rw [← intercalate_concat hne, splitAt_intercalate (by simp) hall, List.map_append]
    rfl
  have hmodule : String.ofList (['.'].intercalate (names.map String.toList))
      = ".".intercalate names := by
    rw [← toList_intercalate_dot, String.ofList_toList]
  have hlength : 0 < names.length := List.length_pos_iff.2 hne
  have hvalid : (names.map String.toList ++ [last.toList]).length ≥ 2
      ∧ (names.map String.toList ++ [last.toList]).all isIdentifier = true := by
    constructor
    · simp only [List.length_append, List.length_map, List.length_singleton]
      omega
    · simpa [isIdentifier_iff] using ⟨hnames, hlast⟩
  simp only [ofPath, ofChars?, hsplit, if_pos hvalid, List.dropLast_concat, hmodule,
    List.getLastD_concat, String.ofList_toList]

theorem valid_of_ofPath (h : ofPath path = .ok s) :
    (Text.splitAt '.' path.toList).length ≥ 2
      ∧ (Text.splitAt '.' path.toList).all isIdentifier = true := by
  rw [ofPath] at h
  split at h
  · rename_i hread
    rw [ofChars?] at hread
    split at hread
    · assumption
    · cases hread
  · cases h

/-- A path is read exactly if it is made of names, the last of them as the attribute. -/
theorem ofPath_eq_ok_iff : ofPath path = .ok s ↔ ∃ names last, names ≠ []
    ∧ (∀ name ∈ names, IsName name) ∧ IsName last
    ∧ path = ".".intercalate names ++ "." ++ last
    ∧ s = { modulePath := ".".intercalate names, attributeName := last } := by
  constructor
  · intro h
    obtain ⟨hlength, hall⟩ := valid_of_ofPath h
    obtain ⟨pieces, hpieces, hnames, hpath⟩ := exists_names_of_splitAt hall
    rw [hpieces, List.length_map] at hlength
    obtain ⟨names, last, hne, rfl⟩ := exists_concat_of_two_le hlength
    rw [intercalate_concat hne] at hpath
    have hfront : ∀ name ∈ names, IsName name := fun name hname =>
      hnames name (List.mem_append_left _ hname)
    have hlast : IsName last := hnames last (by simp)
    rw [hpath, ofPath_intercalate hne hfront hlast] at h
    cases h
    exact ⟨names, last, hne, hfront, hlast, hpath, rfl⟩
  · rintro ⟨names, last, hne, hnames, hlast, rfl, rfl⟩
    exact ofPath_intercalate hne hnames hlast

theorem exists_ofPath_iff : (∃ s, ofPath path = .ok s) ↔ Dotted 2 path := by
  simp only [ofPath_eq_ok_iff]
  constructor
  · rintro ⟨-, names, last, hne, hnames, hlast, rfl, -⟩
    have hlength : 0 < names.length := List.length_pos_iff.2 hne
    refine ⟨names ++ [last], by simp; omega, ?_, (intercalate_concat hne).symm⟩
    simpa [or_imp, forall_and] using ⟨hnames, hlast⟩
  · rintro ⟨names, hlength, hnames, rfl⟩
    obtain ⟨front, last, hne, rfl⟩ := exists_concat_of_two_le hlength
    rw [intercalate_concat hne]
    have hlast : IsName last := hnames last (by simp)
    exact ⟨_, front, last, hne, fun name hname => hnames name (List.mem_append_left _ hname),
      hlast, rfl, rfl⟩

/-- What is read from a path goes by this path, and its attribute is one name. -/
theorem of_ofPath (h : ofPath path = .ok s) :
    s.internal = false ∧ IsName s.attributeName ∧ s.importPath = path := by
  obtain ⟨names, last, -, -, hlast, rfl, rfl⟩ := ofPath_eq_ok_iff.1 h
  exact ⟨rfl, hlast, rfl⟩

/-- A source that is written with names is read from its path. -/
theorem ofPath_importPath (hmodule : Dotted 1 s.modulePath) (hattribute : IsName s.attributeName) :
    ofPath s.importPath = .ok { s with internal := false } := by
  obtain ⟨names, hlength, hnames, hpath⟩ := hmodule
  have hne : names ≠ [] := List.length_pos_iff.1 hlength
  rw [importPath, hpath]
  exact ofPath_intercalate hne hnames hattribute

theorem dotted_importPath (h : ofPath path = .ok s) : Dotted 2 s.importPath := by
  obtain ⟨-, -, hpath⟩ := of_ofPath h
  rw [hpath]
  exact exists_ofPath_iff.1 ⟨s, h⟩

end Pipework.Source

namespace Pipework.Hook

open Pipework.Source

variable {hook : Hook} {owner field : String} {names : List String} {s : Source}

theorem resolve_eq_ok_iff : hook.resolve owner field = .ok s ↔ hook.source? = .ok s := by
  rw [resolve]
  cases hook.source? <;> simp

/-- A hook that is not a source already is read from a path. -/
theorem exists_ofPath_of_resolve (h : hook.resolve owner field = .ok s)
    (hgiven : ∀ given, hook ≠ .source given) : ∃ path, Source.ofPath path = .ok s := by
  rw [resolve_eq_ok_iff] at h
  cases hook with
  | source given => exact absurd rfl (hgiven given)
  | path path => exact ⟨path, h⟩
  | function typePath =>
    rw [source?] at h
    split at h
    · exact ⟨_, h⟩
    · cases h

/-- The type path of a function has nothing in it that a closure or a generic function has. -/
theorem isNamed_intercalate (h : ∀ name ∈ names, IsName name) :
    isNamed ("::".intercalate names) = true := by
  have hnone {c : Char} (hc : ¬ IsWordChar c) (hcolon : c ∉ "::".toList) :
      c ∉ ("::".intercalate names).toList := by
    intro hmem
    rw [String.toList_intercalate] at hmem
    rcases Text.exists_mem_of_mem_intercalate hmem with hmem | ⟨piece, hpiece, hmem⟩
    · exact hcolon hmem
    · obtain ⟨name, hname, rfl⟩ := List.mem_map.1 hpiece
      exact (h name hname).notMem hc hmem
  have hclosure : Text.contains "\x7b\x7bclosure\x7d\x7d" ("::".intercalate names) = false := by
    rw [Bool.eq_false_iff]
    intro hcontains
    have hpart := Text.containsChars_iff.1 hcontains
    exact hnone (c := '\x7b') (by decide) (by decide) (hpart.subset (by decide))
  have hgeneric : '<' ∉ ("::".intercalate names).toList := hnone (by decide) (by decide)
  rw [isNamed, hclosure]
  simpa using hgeneric

theorem replace_intercalate (h : ∀ name ∈ names, IsName name) :
    Text.replace "::" "." ("::".intercalate names) = ".".intercalate names := by
  apply String.toList_inj.1
  rw [Text.toList_replace, String.toList_intercalate, toList_intercalate_dot]
  refine Text.replaced_intercalate ?_
  intro piece hpiece
  obtain ⟨name, hname, rfl⟩ := List.mem_map.1 hpiece
  exact (h name hname).notMem (by decide)

/-- A named function is stored under its type path with dots. -/
theorem exists_resolve_function (hlength : 2 ≤ names.length) (h : ∀ name ∈ names, IsName name) :
    ∃ s, (Hook.function ("::".intercalate names)).resolve owner field = .ok s
      ∧ s.importPath = ".".intercalate names := by
  obtain ⟨s, hs⟩ := exists_ofPath_iff.2 ⟨names, hlength, h, rfl⟩
  refine ⟨s, ?_, (of_ofPath hs).2.2⟩
  rw [resolve_eq_ok_iff, source?, if_pos (isNamed_intercalate h), replace_intercalate h, hs]

end Pipework.Hook

namespace Pipework.Source

/-- A path is read exactly if it is two or more names with dots between them, and what is read is no
part of the library, has one name as its attribute and goes by this path. A source that is written
with names is read back from its path. A hook that is given as a path or as a type path is stored
under a path of that form, and so is each function whose type path is made of names. -/
theorem parsed_exactly (path : String) :
    ((∃ s, ofPath path = .ok s) ↔ Dotted 2 path)
    ∧ (∀ s, ofPath path = .ok s →
        s.internal = false ∧ '.' ∉ s.attributeName.toList ∧ s.importPath = path)
    ∧ (∀ s : Source, Dotted 1 s.modulePath → IsName s.attributeName →
        ofPath s.importPath = .ok { s with internal := false })
    ∧ (∀ (hook : Hook) (owner field : String) (s : Source), hook.resolve owner field = .ok s →
        (∀ given, hook ≠ .source given) → Dotted 2 s.importPath)
    ∧ ∀ (names : List String) (owner field : String), 2 ≤ names.length →
        (∀ name ∈ names, IsName name) → ∃ s,
          (Hook.function ("::".intercalate names)).resolve owner field = .ok s
            ∧ s.importPath = ".".intercalate names := by
  refine ⟨exists_ofPath_iff, ?_, fun _ => ofPath_importPath, ?_, ?_⟩
  · intro s hs
    obtain ⟨hinternal, hattribute, hpath⟩ := of_ofPath hs
    exact ⟨hinternal, hattribute.notMem (by decide), hpath⟩
  · intro hook owner field s hs hgiven
    obtain ⟨read, hread⟩ := Hook.exists_ofPath_of_resolve hs hgiven
    exact dotted_importPath hread
  · intro names owner field hlength hnames
    exact Hook.exists_resolve_function hlength hnames

theorem isName_notify : IsName "notify" := isIdentifier_iff.1 (by decide)

theorem isName_alerts : IsName "alerts" := isIdentifier_iff.1 (by decide)

/-- A function in a module is read back from its path. A path with an empty name is refused. -/
theorem parsed_exactly_notify :
    ofPath "alerts.notify" = .ok { modulePath := "alerts", attributeName := "notify" }
    ∧ (∃ s, (Hook.function "alerts::notify").resolve "training" "on_failure" = .ok s
      ∧ s.importPath = "alerts.notify")
    ∧ ¬ Dotted 2 "alerts..notify" := by
  have hnames : ∀ name ∈ ["alerts", "notify"], IsName name := by
    simp [isName_alerts, isName_notify]
  have halerts : Dotted 1 "alerts" := ⟨["alerts"], by decide, by simp [isName_alerts], by decide⟩
  obtain ⟨-, -, hback, -, hfunction⟩ := parsed_exactly "alerts.notify"
  refine ⟨?_, hfunction ["alerts", "notify"] _ _ (by decide) hnames, ?_⟩
  · exact hback { modulePath := "alerts", attributeName := "notify" } halerts isName_notify
  · intro hdotted
    obtain ⟨s, hs⟩ := (parsed_exactly "alerts..notify").1.2 hdotted
    cases hs

end Pipework.Source
