import Pipework.Config.RunName
import Pipework.Proofs.Text.Replace
import Pipework.Proofs.Time.Text

/-!
# Names made from templates

A template is read as placeholders and the characters between them. There is one way to read it,
because no two placeholders overlap. To replace one kind of placeholder fills it in and leaves what
else was read as it was (`RunName.Whole.fill`), since the value of a placeholder shares no character
with a placeholder. So it makes no difference that the kinds are replaced one after the other
(`RunName.filled_at_once`).
-/

namespace Pipework.RunName

/-- What may stand in a template for a part of the time. -/
inductive Placeholder where
  | date
  | time
  deriving DecidableEq

namespace Placeholder

def text : Placeholder → String
  | .date => datePlaceholder
  | .time => timePlaceholder

/-- What it stands for in the name of a run that starts at an instant. -/
def value (t : Time.Instant) : Placeholder → String
  | .date => dateText t
  | .time => timeText t

variable {p q : Placeholder} {t : Time.Instant} {c : Char}

/-- Placeholders start with a brace and have no other one like it. -/
theorem exists_toList_text (p : Placeholder) :
    ∃ name, p.text.toList = '\x7b' :: name ∧ '\x7b' ∉ name := by
  cases p
  · exact ⟨['d', 'a', 't', 'e', '\x7d'], by decide, by decide⟩
  · exact ⟨['t', 'i', 'm', 'e', '\x7d'], by decide, by decide⟩

theorem toList_text_ne_nil : p.text.toList ≠ [] := by
  obtain ⟨name, htext, -⟩ := p.exists_toList_text
  simp [htext]

theorem length_toList_text : p.text.toList.length = 6 := by
  cases p <;> decide

/-- No placeholder is the start of the other one. -/
theorem eq_of_prefix {cs : List Char} (h : p.text.toList <+: q.text.toList ++ cs) : p = q := by
  have hlength : p.text.toList.length = q.text.toList.length :=
    length_toList_text.trans length_toList_text.symm
  have htext : p.text.toList = q.text.toList :=
    (List.prefix_of_prefix_length_le h (List.prefix_append _ _) (Nat.le_of_eq hlength)).eq_of_length
      hlength
  revert htext
  cases p <;> cases q <;> decide

/-- The text shares no character with a placeholder. -/
def Plain (s : String) : Prop := ∀ c ∈ s.toList, ∀ p : Placeholder, c ∉ p.text.toList

theorem Plain.append {s u : String} (hs : Plain s) (hu : Plain u) : Plain (s ++ u) := by
  intro c hc p
  rw [String.toList_append, List.mem_append] at hc
  rcases hc with hc | hc
  · exact hs c hc p
  · exact hu c hc p

theorem plain_padded {width n : Nat} : Plain (Time.Instant.padded width n) := by
  intro c hc p hp
  have hnone : p.text.toList.all (!·.isDigit) = true := by cases p <;> decide
  have hdigit : c.isDigit = true := Time.Instant.isDigit_of_mem_padded hc
  simpa [hdigit] using List.all_eq_true.1 hnone c hp

theorem plain_mark {mark : Char} (h : mark ∈ ['_', '-', '+']) : Plain (.ofList [mark]) := by
  intro c hc p
  have hmark : c = mark := by simpa using hc
  subst hmark
  simp only [List.mem_cons, List.not_mem_nil, or_false] at h
  obtain rfl | rfl | rfl := h
  all_goals cases p <;> decide

theorem plain_yearText {year : Int} : Plain (Time.Instant.yearText year) := by
  rw [Time.Instant.yearText]
  split
  · exact plain_padded
  · refine .append ?_ plain_padded
    split <;> exact plain_mark (by decide)

/-- A value has digits, underscores and signs, and a placeholder has none of these. -/
theorem plain_value : Plain (p.value t) := by
  have hunderscore : Plain "_" := plain_mark (by decide)
  cases p with
  | date =>
    exact (((plain_yearText.append hunderscore).append plain_padded).append hunderscore).append
      plain_padded
  | time =>
    exact (((((plain_padded.append hunderscore).append plain_padded).append hunderscore).append
      plain_padded).append hunderscore).append plain_padded

theorem toList_value_ne_nil : (p.value t).toList ≠ [] := by
  cases p <;> simp [value, dateText, timeText]

end Placeholder

/-! ## Readings -/

/-- What a template is made of. -/
inductive Part where
  | char (c : Char)
  | hole (p : Placeholder)

namespace Part

/-- The characters of a part in the template. -/
def written : Part → List Char
  | .char c => [c]
  | .hole p => p.text.toList

theorem written_ne_nil {part : Part} : part.written ≠ [] := by
  cases part with
  | char => exact List.cons_ne_nil _ _
  | hole => exact Placeholder.toList_text_ne_nil

/-- The characters of a part in the name of a run. -/
def filled (t : Time.Instant) : Part → List Char
  | .char c => [c]
  | .hole p => (p.value t).toList

/-- What a part becomes where only one kind of placeholder is filled in. -/
def fill (p : Placeholder) (t : Time.Instant) : Part → List Part
  | .char c => [.char c]
  | .hole q => if q = p then (p.value t).toList.map .char else [.hole q]

end Part

/-- The text that parts make up. -/
def spelled (parts : List Part) : List Char := parts.flatMap Part.written

/-- No placeholder is left among the characters. -/
def Whole (parts : List Part) : Prop :=
  ∀ p : Placeholder, ¬ p.text.toList.map Part.char <:+: parts

/-- The parts are those of a text: they make it up, and each placeholder is a part. -/
structure Reads (parts : List Part) (s : String) : Prop where
  spelled : spelled parts = s.toList
  whole : Whole parts

variable {part : Part} {parts others front back : List Part} {p q : Placeholder}
  {t : Time.Instant} {cs : List Char}

@[simp] theorem spelled_nil : spelled [] = [] := rfl

@[simp] theorem spelled_cons : spelled (part :: parts) = part.written ++ spelled parts := rfl

@[simp] theorem spelled_append : spelled (front ++ back) = spelled front ++ spelled back :=
  List.flatMap_append

@[simp] theorem spelled_map_char : spelled (cs.map .char) = cs := by
  simp [spelled, List.flatMap_map, Part.written]

theorem spelled_cons_ne_nil : spelled (part :: parts) ≠ [] := by
  rw [spelled_cons]
  exact List.append_ne_nil_of_left_ne_nil Part.written_ne_nil _

theorem prefix_spelled_hole : p.text.toList <+: spelled (.hole p :: parts) :=
  List.prefix_append _ _

theorem Whole.tail (h : Whole (part :: parts)) : Whole parts := by
  intro p hpart
  exact h p (hpart.trans (List.suffix_cons _ _).isInfix)

theorem hole_notMem_map_char : Part.hole p ∉ cs.map Part.char := by simp

theorem Whole.append_hole (hfront : Whole front) (hback : Whole back) :
    Whole (front ++ .hole p :: back) := by
  intro q hpart
  rcases (Text.infix_append_cons_iff hole_notMem_map_char).1 hpart with h | h
  · exact hfront q h
  · exact hback q h

/-- Characters that cannot start a placeholder are read as characters. -/
theorem map_char_prefix (hcs : '\x7b' ∉ cs) (h : cs <+: spelled parts) :
    cs.map .char <+: parts := by
  induction cs generalizing parts with
  | nil => exact List.nil_prefix
  | cons c cs ih =>
    rw [List.mem_cons, not_or] at hcs
    cases parts with
    | nil => exact absurd (List.prefix_nil.1 h) (List.cons_ne_nil _ _)
    | cons part parts =>
      cases part with
      | char d =>
        obtain ⟨rfl, hrest⟩ := List.cons_prefix_cons.1 h
        exact List.cons_prefix_cons.2 ⟨rfl, ih hcs.2 hrest⟩
      | hole q =>
        obtain ⟨name, htext, -⟩ := q.exists_toList_text
        rw [spelled_cons, Part.written, htext] at h
        exact absurd (List.cons_prefix_cons.1 h).1.symm hcs.1

/-- A placeholder at the start of a text is read as such. -/
theorem Whole.exists_hole (h : Whole parts) (hp : p.text.toList <+: spelled parts) :
    ∃ rest, parts = .hole p :: rest := by
  obtain ⟨name, htext, hname⟩ := p.exists_toList_text
  cases parts with
  | nil => exact absurd (List.prefix_nil.1 hp) Placeholder.toList_text_ne_nil
  | cons part parts =>
    cases part with
    | char c =>
      rw [htext] at hp
      obtain ⟨rfl, hrest⟩ := List.cons_prefix_cons.1 hp
      have hprefix : p.text.toList.map Part.char <+: .char '\x7b' :: parts := by
        rw [htext]
        exact List.cons_prefix_cons.2 ⟨rfl, map_char_prefix hname hrest⟩
      exact absurd hprefix.isInfix (h p)
    | hole q => exact ⟨parts, by rw [Placeholder.eq_of_prefix hp]⟩

/-- A text is read in one way. -/
theorem Whole.unique (h : Whole parts) (h' : Whole others) (heq : spelled parts = spelled others) :
    parts = others := by
  induction parts generalizing others with
  | nil =>
    cases others with
    | nil => rfl
    | cons part others => exact absurd heq.symm spelled_cons_ne_nil
  | cons part parts ih =>
    cases part with
    | char c =>
      cases others with
      | nil => exact absurd heq spelled_cons_ne_nil
      | cons other others =>
        cases other with
        | char d =>
          obtain ⟨rfl, hrest⟩ := List.cons.inj heq
          rw [ih h.tail h'.tail hrest]
        | hole q =>
          obtain ⟨rest, hrest⟩ := h.exists_hole (heq ▸ prefix_spelled_hole)
          cases hrest
    | hole p =>
      obtain ⟨rest, rfl⟩ := h'.exists_hole (p := p) (heq ▸ prefix_spelled_hole)
      rw [ih h.tail h'.tail (List.append_cancel_left heq)]

theorem prefix_spelled (h : cs.map Part.char <+: parts) : cs <+: spelled parts := by
  obtain ⟨rest, rfl⟩ := h
  simp

theorem whole_nil : Whole [] := by
  intro p h
  exact Placeholder.toList_text_ne_nil (List.map_eq_nil_iff.1 (List.infix_nil.1 h))

theorem exists_reading (cs : List Char) : ∃ parts, Whole parts ∧ spelled parts = cs := by
  -- On the length, since a placeholder at the start is passed in one step.
  induction hn : cs.length using Nat.strong_induction_on generalizing cs with
  | _ n ih =>
    subst hn
    by_cases hstart : ∃ p : Placeholder, p.text.toList <+: cs
    · obtain ⟨p, rest, rfl⟩ := hstart
      have hpos : 0 < p.text.toList.length := List.length_pos_iff.2 Placeholder.toList_text_ne_nil
      obtain ⟨parts, hwhole, rfl⟩ := ih rest.length (by simp; omega) rest rfl
      exact ⟨.hole p :: parts, whole_nil.append_hole hwhole, rfl⟩
    · cases cs with
      | nil => exact ⟨[], whole_nil, rfl⟩
      | cons c cs =>
        obtain ⟨parts, hwhole, rfl⟩ := ih cs.length (by simp) cs rfl
        refine ⟨.char c :: parts, ?_, rfl⟩
        intro p hpart
        rcases List.infix_cons_iff.1 hpart with hprefix | htail
        · exact hstart ⟨p, prefix_spelled hprefix⟩
        · exact hwhole p htail

/-! ## Filling in -/

/-- To replace a placeholder in a text is to fill it in where it was read. -/
theorem Whole.replaced_spelled (h : Whole parts) :
    Text.replaced p.text.toList (p.value t).toList (spelled parts)
      = spelled (parts.flatMap (Part.fill p t)) := by
  induction parts with
  | nil => rfl
  | cons part parts ih =>
    have hrest := ih h.tail
    rw [List.flatMap_cons, spelled_append, ← hrest]
    cases part with
    | char c =>
      refine Text.replaced_cons ?_
      intro hprefix
      obtain ⟨rest, hhole⟩ := h.exists_hole hprefix
      cases hhole
    | hole q =>
      rw [spelled_cons, Part.written, Part.fill]
      split
      · rename_i hq
        rw [hq, Text.replaced_append Placeholder.toList_text_ne_nil, spelled_map_char]
      · rename_i hq
        obtain ⟨name, htext, hname⟩ := p.exists_toList_text
        obtain ⟨other, hother, hnot⟩ := q.exists_toList_text
        have hprefix : ¬ p.text.toList <+: q.text.toList ++ spelled parts := fun h =>
          hq (Placeholder.eq_of_prefix h).symm
        -- Behind its brace the other placeholder has none at which `p` could start.
        rw [hother, List.cons_append] at hprefix ⊢
        rw [Text.replaced_cons hprefix, htext, Text.replaced_append_of_notMem hnot]
        simp [spelled, Part.written, hother]

theorem value_disjoint : ∀ part ∈ (p.value t).toList.map Part.char,
    part ∉ q.text.toList.map .char := by
  intro part hpart hq
  obtain ⟨c, hc, rfl⟩ := List.mem_map.1 hpart
  obtain ⟨d, hd, hdc⟩ := List.mem_map.1 hq
  cases hdc
  exact Placeholder.plain_value c hc q hd

/-- What is filled in makes no placeholder together with what stands around it. The parts in front
were passed already, and are kept since a placeholder might start there. -/
theorem infix_of_infix_fill (front : List Part)
    (h : q.text.toList.map .char <:+: front ++ parts.flatMap (Part.fill p t)) :
    q.text.toList.map .char <:+: front ++ parts := by
  induction parts generalizing front with
  | nil => exact h
  | cons part parts ih =>
    have hpass (h : q.text.toList.map .char
        <:+: front ++ ([part] ++ parts.flatMap (Part.fill p t))) :
        q.text.toList.map .char <:+: front ++ part :: parts := by
      rw [← List.append_assoc] at h
      simpa using ih (front ++ [part]) h
    rw [List.flatMap_cons] at h
    cases part with
    | char c => exact hpass h
    | hole r =>
      rw [Part.fill] at h
      split at h
      · have hne : (p.value t).toList.map Part.char ≠ [] :=
          mt List.map_eq_nil_iff.1 Placeholder.toList_value_ne_nil
        rw [Text.infix_append_cons_iff hole_notMem_map_char]
        exact (Text.infix_append_of_disjoint hne value_disjoint h).imp_right fun h => ih [] h
      · exact hpass h

theorem Whole.fill (h : Whole parts) : Whole (parts.flatMap (Part.fill p t)) := by
  intro q hpart
  exact h q (infix_of_infix_fill [] hpart)

theorem flatMap_fill_map_char : (cs.map Part.char).flatMap (Part.fill p t) = cs.map .char := by
  induction cs with
  | nil => rfl
  | cons c cs ih => rw [List.map_cons, List.flatMap_cons, ih, Part.fill, List.singleton_append]

/-- Both placeholders one after the other are all placeholders. -/
theorem fill_fill : (parts.flatMap (Part.fill .date t)).flatMap (Part.fill .time t)
    = (parts.flatMap (Part.filled t)).map .char := by
  induction parts with
  | nil => rfl
  | cons part parts ih =>
    rw [List.flatMap_cons, List.flatMap_append, ih, List.flatMap_cons, List.map_append]
    congr 1
    cases part with
    | char c => rfl
    | hole p =>
      cases p with
      | date => exact flatMap_fill_map_char
      | time => exact List.append_nil _

/-- The placeholder is replaced in the text as it is read. -/
theorem Reads.replace {s : String} (h : Reads parts s) :
    Reads (parts.flatMap (Part.fill p t)) (Text.replace p.text (p.value t) s) := by
  refine ⟨?_, h.whole.fill⟩
  rw [Text.toList_replace, ← h.spelled, h.whole.replaced_spelled]

theorem Reads.unique {s : String} (h : Reads parts s) (h' : Reads others s) : parts = others :=
  h.whole.unique h'.whole (h.spelled.trans h'.spelled.symm)

theorem exists_reads (s : String) : ∃ parts, Reads parts s := by
  obtain ⟨parts, hwhole, hspelled⟩ := exists_reading s.toList
  exact ⟨parts, hspelled, hwhole⟩

theorem Reads.append_hole {before after : String} (hfront : Reads front before)
    (hback : Reads back after) : Reads (front ++ .hole p :: back) (before ++ p.text ++ after) := by
  refine ⟨?_, hfront.whole.append_hole hback.whole⟩
  simp [hfront.spelled, hback.spelled, Part.written]

/-- A template is read in one way, in which each placeholder that stands in it is a part. To replace
one kind of placeholder fills it in among these parts and leaves the others to be read as before. So
the name of a run, for which one kind is replaced after the other, has these parts with all
placeholders filled in at once, and none is left in it. -/
theorem filled_at_once (template : String) (t : Time.Instant) :
    ∃ parts : List Part, (∀ others, Reads others template ↔ others = parts)
      ∧ (∀ before p after, template = before ++ p.text ++ after → ∃ front back,
          Reads front before ∧ Reads back after ∧ parts = front ++ .hole p :: back)
      ∧ (∀ p, Reads (parts.flatMap (Part.fill p t)) (Text.replace p.text (p.value t) template))
      ∧ (format template t).toList = parts.flatMap (Part.filled t)
      ∧ ∀ p : Placeholder, ¬ p.text.toList <:+: (format template t).toList := by
  obtain ⟨parts, hparts⟩ := exists_reads template
  have hdates : Reads (parts.flatMap (Part.fill .date t))
      (Text.replace datePlaceholder (dateText t) template) := hparts.replace
  have hname : Reads ((parts.flatMap (Part.filled t)).map .char) (format template t) :=
    fill_fill ▸ hdates.replace (p := .time)
  have hfilled : parts.flatMap (Part.filled t) = (format template t).toList := by
    rw [← hname.spelled, spelled_map_char]
  refine ⟨parts, ?_, ?_, fun p => hparts.replace, hfilled.symm, ?_⟩
  · intro others
    constructor
    · exact fun h => h.unique hparts
    · rintro rfl
      exact hparts
  · rintro before p after rfl
    obtain ⟨front, hfront⟩ := exists_reads before
    obtain ⟨back, hback⟩ := exists_reads after
    exact ⟨front, back, hfront, hback, hparts.unique (hfront.append_hole hback)⟩
  · intro p hpart
    rw [← hfilled] at hpart
    exact hname.whole p (hpart.map _)

/-- What stands around a time that was filled in does not join to a date. -/
theorem filled_at_once_around :
    format "\x7bda\x7btime\x7dte\x7d-\x7bdate\x7d" { seconds := 0 }
      = "\x7bda00_00_00_000000te\x7d-1970_01_01"
    ∧ ¬ datePlaceholder.toList
      <:+: (format "\x7bda\x7btime\x7dte\x7d-\x7bdate\x7d" { seconds := 0 }).toList := by
  obtain ⟨parts, -, -, -, -, hnone⟩ :=
    filled_at_once "\x7bda\x7btime\x7dte\x7d-\x7bdate\x7d" { seconds := 0 }
  exact ⟨by decide +kernel, hnone .date⟩

end Pipework.RunName
