import Mathlib.Data.List.Infix
import Mathlib.Tactic.Tauto

/-!
# Scanning compact text

A scan keeps track of how deep the brackets are nested and whether it stands inside quotes. From
where a compact object starts to where it ends the depth goes up and comes back, and inside quotes a
text cannot be mistaken for structure. So an object is told apart from any text before it
(`Block.eq_nil_of_suffix`) and after it (`Block.eq_nil_of_append`).
-/

namespace Pipework.Json

inductive ScanMode where
  | outside
  | inside
  /-- After a backslash inside quotes. -/
  | escaped
  /-- After a backslash outside quotes, which no JSON text has. -/
  | lost
  deriving DecidableEq

structure Scan where
  mode : ScanMode
  depth : Int

namespace Scan

def next (s : Scan) (c : Char) : Scan :=
  match s.mode with
  | .outside =>
    if c = '"' then { s with mode := .inside }
    else if c = '\\' then { s with mode := .lost }
    else if c = '\x7b' ∨ c = '[' then { s with depth := s.depth + 1 }
    else if c = '\x7d' ∨ c = ']' then { s with depth := s.depth - 1 }
    else s
  | .inside =>
    if c = '"' then { s with mode := .outside }
    else if c = '\\' then { s with mode := .escaped }
    else s
  | .escaped => { s with mode := .inside }
  | .lost => s

def read (s : Scan) (cs : List Char) : Scan := cs.foldl next s

@[simp] theorem read_nil (s : Scan) : s.read [] = s := rfl

@[simp] theorem read_cons (s : Scan) (c : Char) (cs : List Char) :
    s.read (c :: cs) = (s.next c).read cs := rfl

@[simp] theorem read_append (s : Scan) (cs ds : List Char) :
    s.read (cs ++ ds) = (s.read cs).read ds := List.foldl_append

theorem read_of_lost {s : Scan} (h : s.mode = .lost) (cs : List Char) : s.read cs = s := by
  induction cs with
  | nil => rfl
  | cons c cs ih =>
    have hnext : s.next c = s := by simp [next, h]
    rw [read_cons, hnext, ih]

/-- One of the two scans takes for structure what the other takes for text. -/
def Opposed (s t : Scan) : Prop :=
  s.mode = .inside ∧ t.mode = .outside ∨ s.mode = .outside ∧ t.mode = .inside
    ∨ s.mode = .lost ∨ t.mode = .lost

theorem Opposed.symm {s t : Scan} (h : s.Opposed t) : t.Opposed s := by
  unfold Opposed at h ⊢
  tauto

/-- A quote takes both scans to the other side, and a backslash loses the one outside. -/
theorem opposed_next {s t : Scan} (hs : s.mode = .inside) (ht : t.mode = .outside) (c : Char) :
    (s.next c).Opposed (t.next c) := by
  by_cases hq : c = '"'
  · exact .inr (.inl ⟨by simp [next, hs, hq], by simp [next, ht, hq]⟩)
  · by_cases hb : c = '\\'
    · exact .inr (.inr (.inr (by simp [next, ht, hb])))
    · refine .inl ⟨by simp [next, hs, hq, hb], ?_⟩
      simp only [next, ht, if_neg hq, if_neg hb]
      split
      · rfl
      · split <;> simp [ht]

theorem Opposed.next {s t : Scan} (h : s.Opposed t) (c : Char) : (s.next c).Opposed (t.next c) := by
  obtain ⟨hs, ht⟩ | ⟨hs, ht⟩ | hs | ht := h
  · exact opposed_next hs ht c
  · exact (opposed_next ht hs c).symm
  · exact .inr (.inr (.inl (by simp [Scan.next, hs])))
  · exact .inr (.inr (.inr (by simp [Scan.next, ht])))

theorem Opposed.read {s t : Scan} (h : s.Opposed t) (cs : List Char) :
    (s.read cs).Opposed (t.read cs) := by
  induction cs generalizing s t with
  | nil => exact h
  | cons c cs ih => exact ih (h.next c)

/-- Opposed scans never end outside together. -/
theorem Opposed.not_outside {s t : Scan} (h : s.Opposed t) (hs : s.mode = .outside)
    (ht : t.mode = .outside) : False := by
  simp [Opposed, hs, ht] at h

/-- A character that no scan takes notice of outside quotes. -/
def Plain (c : Char) : Prop := c ∉ ['"', '\\', '\x7b', '[', '\x7d', ']']

instance : DecidablePred Plain := fun c =>
  inferInstanceAs (Decidable (c ∉ ['"', '\\', '\x7b', '[', '\x7d', ']']))

theorem next_of_plain {c : Char} (h : Plain c) (d : Int) :
    next ⟨.outside, d⟩ c = ⟨.outside, d⟩ := by
  simp only [Plain, List.mem_cons, List.not_mem_nil, or_false, not_or] at h
  simp [next, h]

end Scan

open Scan

/-- A text that leaves the scan as it was and never comes out of the depth it began with. -/
structure Balanced (mode : ScanMode) (cs : List Char) : Prop where
  read (d : Int) : read ⟨mode, d⟩ cs = ⟨mode, d⟩
  le_depth (d : Int) (p : List Char) : p <+: cs → d ≤ (Scan.read ⟨mode, d⟩ p).depth

namespace Balanced

variable {mode : ScanMode}

theorem nil : Balanced mode [] where
  read _ := rfl
  le_depth d p hp := by
    rw [List.prefix_nil.1 hp]
    exact Int.le_refl d

theorem append {cs ds : List Char} (hc : Balanced mode cs) (hd : Balanced mode ds) :
    Balanced mode (cs ++ ds) where
  read d := by rw [read_append, hc.read, hd.read]
  le_depth d p hp := by
    rcases List.prefix_or_prefix_of_prefix hp (List.prefix_append cs ds) with h | ⟨q, rfl⟩
    · exact hc.le_depth d p h
    · rw [read_append, hc.read]
      exact hd.le_depth d q ((List.prefix_append_right_inj cs).1 hp)

theorem flatMap {α : Type} {f : α → List Char} {l : List α} (h : ∀ a ∈ l, Balanced mode (f a)) :
    Balanced mode (l.flatMap f) := by
  induction l with
  | nil => exact nil
  | cons a l ih =>
    rw [List.flatMap_cons]
    exact (h a List.mem_cons_self).append (ih fun b hb => h b (List.mem_cons_of_mem _ hb))

theorem singleton {c : Char} (h : ∀ d, next ⟨mode, d⟩ c = ⟨mode, d⟩) : Balanced mode [c] where
  read := h
  le_depth d p hp := by
    obtain rfl | ⟨q, rfl, hq⟩ := List.prefix_cons_iff.1 hp
    · exact Int.le_refl d
    · rw [List.prefix_nil.1 hq, read_cons, h]
      exact Int.le_refl d

theorem of_plain {cs : List Char} (h : ∀ c ∈ cs, Plain c) : Balanced .outside cs := by
  rw [← List.flatMap_singleton' cs]
  exact flatMap fun c hc => singleton (next_of_plain (h c hc))

/-- Inside quotes only the quote and the backslash matter. -/
theorem inside_singleton {c : Char} (hq : c ≠ '"') (hb : c ≠ '\\') : Balanced .inside [c] :=
  singleton fun d => by simp [next, hq, hb]

/-- Inside quotes whatever follows a backslash is text. -/
theorem inside_escaped (c : Char) : Balanced .inside ['\\', c] where
  read _ := rfl
  le_depth d p hp := by
    obtain rfl | ⟨q, rfl, hq⟩ := List.prefix_cons_iff.1 hp
    · exact Int.le_refl d
    · obtain rfl | ⟨q', rfl, hq'⟩ := List.prefix_cons_iff.1 hq
      · exact Int.le_refl d
      · rw [List.prefix_nil.1 hq']
        exact Int.le_refl d

theorem quoted {cs : List Char} (h : Balanced .inside cs) :
    Balanced .outside ('"' :: cs ++ ['"']) := by
  have hend : ∀ d, Scan.read ⟨.outside, d⟩ ('"' :: cs ++ ['"']) = ⟨.outside, d⟩ := by
    intro d
    rw [List.cons_append, read_cons, read_append]
    exact congrArg (fun s => Scan.read s ['"']) (h.read d)
  refine ⟨hend, fun d p hp => ?_⟩
  obtain rfl | ⟨q, rfl, hq⟩ := List.prefix_cons_iff.1 hp
  · exact Int.le_refl d
  · rcases List.prefix_concat_iff.1 hq with rfl | hq
    · exact Int.le_of_eq (congrArg depth (hend d)).symm
    · exact h.le_depth d q hq

end Balanced

/-- A balanced text in braces. -/
def Block (cs : List Char) : Prop :=
  ∃ inner, Balanced .outside inner ∧ cs = '\x7b' :: inner ++ ['\x7d']

section Enclosed

variable {l r : Char} (hl : l = '\x7b' ∨ l = '[') (hr : r = '\x7d' ∨ r = ']') {cs : List Char}
  (h : Balanced .outside cs)
include hl h

/-- Strictly between the brackets the depth is greater than before them. -/
theorem lt_depth_of_enclosed (d : Int) {p : List Char} (hp : p <+: l :: cs ++ [r])
    (hnil : p ≠ []) (hall : p ≠ l :: cs ++ [r]) : d < (read ⟨.outside, d⟩ p).depth := by
  obtain rfl | ⟨q, rfl, hq⟩ := List.prefix_cons_iff.1 hp
  · exact absurd rfl hnil
  · rcases List.prefix_concat_iff.1 hq with rfl | hq
    · exact absurd rfl hall
    · have hopen : next ⟨.outside, d⟩ l = ⟨.outside, d + 1⟩ := by
        rcases hl with rfl | rfl <;> rfl
      have hle := h.le_depth (d + 1) q hq
      rw [read_cons, hopen]
      omega

include hr

theorem read_enclosed (d : Int) : read ⟨.outside, d⟩ (l :: cs ++ [r]) = ⟨.outside, d⟩ := by
  have hopen : next ⟨.outside, d⟩ l = ⟨.outside, d + 1⟩ := by
    rcases hl with rfl | rfl <;> rfl
  have hclose : next ⟨.outside, d + 1⟩ r = ⟨.outside, d + 1 - 1⟩ := by
    rcases hr with rfl | rfl <;> rfl
  rw [List.cons_append, read_cons, hopen, read_append, h.read, read_cons, hclose, read_nil,
    Int.add_sub_cancel]

theorem balanced_enclosed : Balanced .outside (l :: cs ++ [r]) where
  read := read_enclosed hl hr h
  le_depth d p hp := by
    by_cases hnil : p = []
    · rw [hnil]
      exact Int.le_refl d
    · by_cases hall : p = l :: cs ++ [r]
      · rw [hall]
        exact Int.le_of_eq (congrArg depth (read_enclosed hl hr h d)).symm
      · exact Int.le_of_lt (lt_depth_of_enclosed hl h d hp hnil hall)

end Enclosed

namespace Block

variable {cs ds w : List Char}

theorem balanced (h : Block cs) : Balanced .outside cs := by
  obtain ⟨inner, hinner, rfl⟩ := h
  exact balanced_enclosed (.inl rfl) (.inl rfl) hinner

theorem lt_depth (h : Block cs) (d : Int) (hw : w <+: cs) (hnil : w ≠ []) (hall : w ≠ cs) :
    d < (read ⟨.outside, d⟩ w).depth := by
  obtain ⟨inner, hinner, rfl⟩ := h
  exact lt_depth_of_enclosed (.inl rfl) hinner d hw hnil hall

theorem ne_nil (h : Block cs) : cs ≠ [] := by
  obtain ⟨inner, _, rfl⟩ := h
  exact List.cons_ne_nil _ _

/-- A block does not begin with a shorter block. -/
theorem eq_nil_of_append (h : Block (cs ++ w)) (hc : Block cs) : w = [] := by
  by_contra hne
  have hlt := h.lt_depth 0 (List.prefix_append cs w) hc.ne_nil (by simpa using hne)
  rw [hc.balanced.read] at hlt
  exact Int.lt_irrefl 0 hlt

/-- A block does not end with a shorter block: a scan that comes to the inner one outside quotes is
too deep, and one that comes to it inside quotes is opposed to the scan that begins there. -/
theorem eq_nil_of_suffix (h : Block (w ++ cs)) (hc : Block cs) : w = [] := by
  by_contra hne
  have hlt := h.lt_depth 0 (List.prefix_append w cs) hne (by simpa using hc.ne_nil)
  have hend : (read ⟨.outside, 0⟩ w).read cs = ⟨.outside, 0⟩ := by
    rw [← read_append, h.balanced.read]
  have hstart : read ⟨.outside, 0⟩ cs = ⟨.outside, 0⟩ := hc.balanced.read 0
  cases hs : read ⟨.outside, 0⟩ w with
  | mk mode depth =>
    rw [hs] at hlt hend
    cases mode with
    | outside =>
      rw [hc.balanced.read] at hend
      cases hend
      exact Int.lt_irrefl 0 hlt
    | inside =>
      have hopposed : Opposed ⟨.inside, depth⟩ ⟨.outside, 0⟩ := .inl ⟨rfl, rfl⟩
      have := hopposed.read cs
      rw [hend, hstart] at this
      exact this.not_outside rfl rfl
    | escaped =>
      obtain ⟨inner, _, rfl⟩ := hc
      have hopposed : Opposed ⟨.inside, depth⟩ ⟨.outside, 0 + 1⟩ := .inl ⟨rfl, rfl⟩
      have := hopposed.read (inner ++ ['\x7d'])
      rw [show Scan.read ⟨.inside, depth⟩ (inner ++ ['\x7d']) = ⟨.outside, 0⟩ from hend,
        show Scan.read ⟨.outside, 0 + 1⟩ (inner ++ ['\x7d']) = ⟨.outside, 0⟩ from hstart] at this
      exact this.not_outside rfl rfl
    | lost =>
      rw [read_of_lost rfl] at hend
      cases hend

/-- A block at the end of a text is the only one there. -/
theorem append_left_inj {u v : List Char} (hc : Block cs) (hd : Block ds)
    (h : u ++ cs = v ++ ds) : u = v ∧ cs = ds := by
  rcases List.append_eq_append_iff.1 h with ⟨w, rfl, rfl⟩ | ⟨w, rfl, rfl⟩
  · cases hc.eq_nil_of_suffix hd
    simp
  · cases hd.eq_nil_of_suffix hc
    simp

/-- A block at the start of a text is the only one there. -/
theorem append_right_inj {u v : List Char} (hc : Block cs) (hd : Block ds)
    (h : cs ++ u = ds ++ v) : cs = ds ∧ u = v := by
  rcases List.append_eq_append_iff.1 h with ⟨w, rfl, rfl⟩ | ⟨w, rfl, rfl⟩
  · cases hd.eq_nil_of_append hc
    simp
  · cases hc.eq_nil_of_append hd
    simp

end Block

end Pipework.Json
