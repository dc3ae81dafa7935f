import Mathlib.Data.List.Infix
import Mathlib.Data.Set.List
import Pipework.Code.Path
import Pipework.Proofs.Text.Split

/-!
# Where paths lead

An absolute path leads to a directory, which is known by the names on the way from the root: a name
leads down and two dots lead back. Components that are written with slashes between them and put
after a path are read as its further components, so it leads where they lead from there
(`components_joined_join`).
-/

namespace Pipework.Path

/-! ## Directories -/

/-- Whether a path starts at the root. -/
def IsAbsolute (path : String) : Prop := path.toList.head? = some '/'

instance (path : String) : Decidable (IsAbsolute path) :=
  inferInstanceAs (Decidable (path.toList.head? = some '/'))

/-- The directory that a component leads to. There is nothing above the root. -/
def Component.follow (directory : List String) : Component → List String
  | .root => []
  | .current => directory
  | .parent => directory.dropLast
  | .name text => directory ++ [text]

/-- The directory that a path leads to, as the names on the way from the root to it. -/
def directory (path : String) : List String := (components path).foldl Component.follow []

/-- A path put after another one, with a slash between them where there is none. -/
def joined (base path : String) : String :=
  if IsAbsolute path then path
  else if base.toList.getLast?.all (· = '/') then base ++ path
  else base ++ "/" ++ path

/-! ## Components -/

variable {c : Component} {cs : List Component} {base path : String}

theorem stripPrefix?_eq_some_iff {start whole rest : List Component} :
    stripPrefix? start whole = some rest ↔ start ++ rest = whole := by
  induction start generalizing whole with
  | nil => simp [stripPrefix?, eq_comm]
  | cons a start ih =>
    cases whole with
    | nil => simp [stripPrefix?]
    | cons b whole =>
      rw [stripPrefix?]
      split
      · rename_i hab
        simp [ih, hab]
      · rename_i hab
        simp [hab]

/-- The components that stand between slashes. -/
def inner (cs : List Char) : List Component :=
  (Text.splitAt '/' cs).filterMap Component.ofPiece?

theorem inner_append_slash {cs ds : List Char} :
    inner (cs ++ '/' :: ds) = inner cs ++ inner ds := by
  simp only [inner, Text.splitAt_append_cons, List.filterMap_append]

/-- Slashes at the end of a path and dots say nothing. -/
theorem inner_slash {cs : List Char} : inner (cs ++ ['/']) = inner cs := by
  have hnil : inner [] = [] := rfl
  rw [inner_append_slash, hnil, List.append_nil]

theorem components_of_isAbsolute (h : IsAbsolute path) :
    components path = .root :: inner path.toList := by
  rw [IsAbsolute] at h
  cases hpath : path.toList with
  | nil => simp [hpath] at h
  | cons first rest =>
    have hfirst : first = '/' := by simpa [hpath] using h
    subst hfirst
    simp [components, hpath, inner]

namespace Component

/-- A component that can stand between slashes: it is read back as it is written. -/
structure Between (c : Component) : Prop where
  read : ofPiece? c.text.toList = some c
  slash_notMem : '/' ∉ c.text.toList

theorem toList_text_of_ofPiece? {piece : List Char} (h : ofPiece? piece = some c) :
    c.text.toList = piece := by
  rw [ofPiece?] at h
  split at h
  · cases h
  · split at h
    · rename_i hpiece
      cases h
      rw [hpiece]
      rfl
    · cases h
      exact String.toList_ofList

theorem Between.text_ne_nil (h : c.Between) : c.text.toList ≠ [] := by
  intro hnil
  have hread := h.read
  rw [hnil] at hread
  cases hread

end Component

theorem between_of_mem_inner {cs : List Char} (h : c ∈ inner cs) : c.Between := by
  obtain ⟨piece, hpiece, hc⟩ := List.mem_filterMap.1 h
  have htext := Component.toList_text_of_ofPiece? hc
  exact ⟨htext ▸ hc, htext ▸ Text.notMem_of_mem_splitAt hpiece⟩

/-! ## Joined paths -/

theorem toList_join : (join cs).toList = ['/'].intercalate (cs.map (·.text.toList)) := by
  rw [join, String.toList_intercalate, List.map_map]
  rfl

theorem inner_join (h : ∀ c ∈ cs, c.Between) : inner (join cs).toList = cs := by
  cases cs with
  | nil => rfl
  | cons first rest =>
    have hsplit : Text.splitAt '/' (join (first :: rest)).toList
        = (first :: rest).map (·.text.toList) := by
      refine Text.splitAt_eq_iff.2 ⟨List.cons_ne_nil _ _, ?_, toList_join.symm⟩
      intro piece hpiece
      obtain ⟨c, hc, rfl⟩ := List.mem_map.1 hpiece
      exact (h c hc).slash_notMem
    have hread : ∀ c ∈ first :: rest,
        (Component.ofPiece? ∘ fun c => c.text.toList) c = some c := fun c hc => (h c hc).read
    rw [inner, hsplit, List.filterMap_map, List.filterMap_congr hread, List.filterMap_some]

theorem not_isAbsolute_join (h : ∀ c ∈ cs, c.Between) : ¬ IsAbsolute (join cs) := by
  cases cs with
  | nil => decide
  | cons first rest =>
    have hfirst := h first List.mem_cons_self
    obtain ⟨letter, letters, htext⟩ := List.exists_cons_of_ne_nil hfirst.text_ne_nil
    have hletter : letter ≠ '/' := by
      rintro rfl
      exact hfirst.slash_notMem (htext ▸ List.mem_cons_self)
    rw [IsAbsolute, toList_join, List.map_cons, htext]
    cases rest <;> simpa [List.intercalate] using hletter

/-- A path is read as a path below what it is put after. -/
theorem inner_joined (h : ¬ IsAbsolute path) :
    inner (joined base path).toList = inner base.toList ++ inner path.toList := by
  rw [joined, if_neg h]
  split
  · rename_i hslash
    rw [String.toList_append]
    rcases List.eq_nil_or_concat base.toList with hbase | ⟨start, last, hbase⟩
    · simp [hbase, inner, Text.splitAt, Component.ofPiece?]
    · have hlast : last = '/' := by simpa [hbase] using hslash
      rw [hbase, hlast, List.concat_eq_append, List.append_assoc, List.singleton_append,
        inner_append_slash, inner_slash]
  · rw [String.toList_append, String.toList_append, List.append_assoc]
    exact inner_append_slash

theorem isAbsolute_joined (h : IsAbsolute base) : IsAbsolute (joined base path) := by
  have happend (rest : List Char) : (base.toList ++ rest).head? = some '/' := by
    rw [IsAbsolute] at h
    rw [List.head?_append, h, Option.some_or]
  rw [joined]
  split
  · assumption
  · split
    · rw [IsAbsolute, String.toList_append, happend]
    · rw [IsAbsolute, String.toList_append, String.toList_append, List.append_assoc, happend]

/-- Components that are written after an absolute path are its further components. -/
theorem components_joined_join (hbase : IsAbsolute base) (h : ∀ c ∈ cs, c.Between) :
    components (joined base (join cs)) = components base ++ cs := by
  rw [components_of_isAbsolute (isAbsolute_joined hbase), components_of_isAbsolute hbase,
    inner_joined (not_isAbsolute_join h), inner_join h, List.cons_append]

/-- A dot leads nowhere else. -/
theorem components_joined_dot (hbase : IsAbsolute base) :
    components (joined base ".") = components base := by
  have hrelative : ¬ IsAbsolute "." := by decide
  have hdot : inner ".".toList = [] := by decide
  rw [components_of_isAbsolute (isAbsolute_joined hbase), components_of_isAbsolute hbase,
    inner_joined hrelative, hdot, List.append_nil]

/-! ## Straight paths -/

/-- Whether a path leads down only. -/
def IsStraight (path : String) : Prop := .parent ∉ components path

instance (path : String) : Decidable (IsStraight path) :=
  inferInstanceAs (Decidable (.parent ∉ components path))

theorem name_of_mem_inner {cs : List Char} (h : c ∈ inner cs) (hc : c ≠ .parent) :
    c ∈ Set.range Component.name := by
  obtain ⟨piece, -, hpiece⟩ := List.mem_filterMap.1 h
  rw [Component.ofPiece?] at hpiece
  grind

theorem foldl_follow_map_name {names start : List String} :
    (names.map Component.name).foldl Component.follow start = start ++ names := by
  induction names generalizing start with
  | nil => simp
  | cons name names ih => simp [Component.follow, ih]

/-- The components of a straight path are the names on the way to its directory. -/
theorem components_of_isStraight (h : IsAbsolute path) (hstraight : IsStraight path) :
    components path = .root :: (directory path).map .name := by
  have hcomponents := components_of_isAbsolute h
  have hnames : inner path.toList ∈ Set.range (List.map Component.name) := by
    rw [Set.range_list_map]
    intro c hc
    refine name_of_mem_inner hc ?_
    rintro rfl
    exact hstraight (hcomponents ▸ List.mem_cons_of_mem _ hc)
  obtain ⟨names, hnames⟩ := hnames
  rw [directory, hcomponents, ← hnames, List.foldl_cons, foldl_follow_map_name]
  rfl

/-- Of two straight paths one goes on from the other exactly where its directory lies below. -/
theorem components_prefix_iff {path : String} (hbase : IsAbsolute base) (hpath : IsAbsolute path)
    (hb : IsStraight base) (hp : IsStraight path) :
    components base <+: components path ↔ directory base <+: directory path := by
  have hinj : Function.Injective Component.name := fun _ _ => Component.name.inj
  rw [components_of_isStraight hbase hb, components_of_isStraight hpath hp, List.cons_prefix_cons,
    List.prefix_map_iff_of_injective hinj]
  simp

end Pipework.Path
