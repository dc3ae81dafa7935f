import Pipework.Proofs.Json.Scalar

/-!
# Values are told by their compact texts

Different values have different compact texts. The first character shows what kind of value follows,
and no value goes on past a comma or a closing bracket, so arrays and objects are told by their
items.
-/

namespace Pipework.Json

/-- The character that a value begins with, a zero for all numbers. -/
def lead : Json → Char
  | .null => 'n'
  | .bool true => 't'
  | .bool false => 'f'
  | .num _ => '0'
  | .str _ => '"'
  | .arr _ => '['
  | .obj _ => '\x7b'

theorem toList_compact_arr (items : List Json) : (compact (.arr items)).toList
    = '[' :: ((",".intercalate (compactItems items)).toList ++ [']']) := by
  rw [compact, String.toList_append, String.toList_append]
  rfl

theorem toList_compact_obj (members : List (String × Json)) : (compact (.obj members)).toList
    = '\x7b' :: ((",".intercalate (compactMembers members)).toList ++ ['\x7d']) := by
  rw [compact, String.toList_append, String.toList_append]
  rfl

theorem exists_compact (x : Json) :
    ∃ c cs, (compact x).toList = c :: cs ∧ lead x = if NumeralChar c then '0' else c := by
  cases x with
  | null => exact ⟨_, _, rfl, rfl⟩
  | bool b => cases b <;> exact ⟨_, _, rfl, rfl⟩
  | num n =>
    obtain ⟨c, cs, htext⟩ := exists_numberText n
    refine ⟨c, cs, htext, ?_⟩
    rw [if_pos (numeralText_numberText n c (by simp [htext]))]
    rfl
  | str s => exact ⟨'"', _, toList_quote s, rfl⟩
  | arr items => exact ⟨'[', _, toList_compact_arr items, rfl⟩
  | obj members => exact ⟨'\x7b', _, toList_compact_obj members, rfl⟩

theorem lead_eq {x y : Json} {s t : List Char}
    (h : (compact x).toList ++ s = (compact y).toList ++ t) : lead x = lead y := by
  obtain ⟨c, cs, htext, hlead⟩ := exists_compact x
  obtain ⟨d, ds, htext', hlead'⟩ := exists_compact y
  rw [htext, htext', List.cons_append, List.cons_append] at h
  rw [hlead, hlead', (List.cons.inj h).1]

theorem exists_num_of_lead {x : Json} (h : lead x = '0') : ∃ n, x = .num n := by
  cases x with
  | num n => exact ⟨n, rfl⟩
  | bool b => cases b <;> simp [lead] at h
  | null | str | arr | obj => simp [lead] at h

/-- Each text with a comma before it. -/
def commas (texts : List String) : List Char := texts.flatMap fun t => ',' :: t.toList

theorem commas_cons (t : String) (texts : List String) (cs : List Char) :
    commas (t :: texts) ++ cs = ',' :: (t.toList ++ (commas texts ++ cs)) := by
  simp [commas]

theorem commas_eq {texts : List String} (h : texts ≠ []) :
    commas texts = ',' :: (",".intercalate texts).toList := by
  induction texts with
  | nil => exact absurd rfl h
  | cons t texts ih =>
    by_cases hnil : texts = []
    · simp [commas, hnil]
    · rw [commas, List.flatMap_cons, ← commas, ih hnil, String.intercalate_cons_of_ne_nil hnil,
        String.toList_append, String.toList_append, List.append_assoc]
      rfl

theorem delimited_commas {close : Char} (h : close = ']' ∨ close = '\x7d') (texts : List String)
    (cs : List Char) : Delimited (commas texts ++ close :: cs) := by
  intro c hc
  cases texts with
  | nil =>
    cases hc
    exact .inr h
  | cons t texts =>
    rw [commas_cons] at hc
    cases hc
    exact .inl rfl

/-- None of the texts is empty or begins with the bracket that closes the list. -/
def Apart (close : Char) (texts : List String) : Prop :=
  ∀ t ∈ texts, ∃ c cs, t.toList = c :: cs ∧ c ≠ close

theorem Apart.head_ne {close : Char} {texts : List String} (h : Apart close texts)
    (hnil : texts ≠ []) {s t : List Char} :
    (",".intercalate texts).toList ++ s ≠ close :: t := by
  cases texts with
  | nil => exact absurd rfl hnil
  | cons u us =>
    obtain ⟨c, cs, hu, hc⟩ := h u List.mem_cons_self
    have hcommas := commas_cons u us s
    rw [commas_eq hnil, hu, List.cons_append, List.cons_append, List.cons_inj_right] at hcommas
    rw [hcommas]
    exact fun heq => hc (List.cons.inj heq).1

/-- An empty list is told from the others, so a comma may be put before the first item too. -/
theorem commas_eq_of_intercalate {close : Char} {texts texts' : List String}
    (h : Apart close texts) (h' : Apart close texts') {s t : List Char}
    (heq : (",".intercalate texts).toList ++ close :: s
      = (",".intercalate texts').toList ++ close :: t) :
    commas texts ++ close :: s = commas texts' ++ close :: t := by
  by_cases hnil : texts = []
  · by_cases hnil' : texts' = []
    · rw [hnil, hnil'] at heq ⊢
      exact heq
    · rw [hnil] at heq
      exact absurd heq.symm (h'.head_ne hnil')
  · by_cases hnil' : texts' = []
    · rw [hnil'] at heq
      exact absurd heq (h.head_ne hnil)
    · rw [commas_eq hnil, commas_eq hnil', List.cons_append, List.cons_append, heq]

theorem lead_ne_bracket (x : Json) : lead x ≠ ']' := by
  cases x with
  | bool b => cases b <;> simp [lead]
  | null | num | str | arr | obj => simp [lead]

theorem apart_compactItems (items : List Json) : Apart ']' (compactItems items) := by
  induction items with
  | nil => simp [Apart, compactItems]
  | cons x xs ih =>
    simp only [Apart, compactItems, List.mem_cons, forall_eq_or_imp]
    obtain ⟨c, cs, htext, hlead⟩ := exists_compact x
    refine ⟨⟨c, cs, htext, ?_⟩, ih⟩
    rintro rfl
    rw [if_neg (by decide)] at hlead
    exact lead_ne_bracket x hlead

theorem apart_compactMembers (members : List (String × Json)) :
    Apart '\x7d' (compactMembers members) := by
  induction members with
  | nil => simp [Apart, compactMembers]
  | cons member members ih =>
    obtain ⟨k, x⟩ := member
    simp only [Apart, compactMembers, List.mem_cons, forall_eq_or_imp]
    rw [String.toList_append, String.toList_append, toList_quote, List.cons_append,
      List.cons_append]
    exact ⟨⟨_, _, rfl, by decide⟩, ih⟩

mutual

/-- A value can be told from its text, and so can what follows it. Only numbers need a delimiter
after them. -/
theorem compact_append_inj : (x y : Json) → {s t : List Char} → (∀ n, x = .num n → Delimited s) →
    (∀ n, y = .num n → Delimited t) → (compact x).toList ++ s = (compact y).toList ++ t →
    x = y ∧ s = t
  | .null, y, s, t, hs, ht, h => by
    have hlead := lead_eq h
    cases y with
    | null => exact ⟨rfl, List.append_cancel_left h⟩
    | bool b => cases b <;> simp [lead] at hlead
    | num | str | arr | obj => simp [lead] at hlead
  | .bool a, y, s, t, hs, ht, h => by
    have hlead := lead_eq h
    cases y with
    | bool b =>
      cases a <;> cases b <;>
        first | exact ⟨rfl, List.append_cancel_left h⟩ | simp [lead] at hlead
    | null | num | str | arr | obj => cases a <;> simp [lead] at hlead
  | .num m, y, s, t, hs, ht, h => by
    have hlead := lead_eq h
    cases y with
    | num n =>
      obtain ⟨rfl, hrest⟩ := numberText_append_inj (hs m rfl) (ht n rfl) h
      exact ⟨rfl, hrest⟩
    | bool b => cases b <;> simp [lead] at hlead
    | null | str | arr | obj => simp [lead] at hlead
  | .str a, y, s, t, hs, ht, h => by
    have hlead := lead_eq h
    cases y with
    | str b =>
      obtain ⟨rfl, hrest⟩ := quote_append_inj h
      exact ⟨rfl, hrest⟩
    | bool b => cases b <;> simp [lead] at hlead
    | null | num | arr | obj => simp [lead] at hlead
  | .arr xs, y, s, t, hs, ht, h => by
    have hlead := lead_eq h
    cases y with
    | arr ys =>
      rw [toList_compact_arr, toList_compact_arr, List.cons_append, List.cons_append,
        List.cons_inj_right, List.append_assoc, List.append_assoc] at h
      obtain ⟨rfl, hrest⟩ := items_inj xs ys
        (commas_eq_of_intercalate (apart_compactItems xs) (apart_compactItems ys) h)
      exact ⟨rfl, hrest⟩
    | bool b => cases b <;> simp [lead] at hlead
    | null | num | str | obj => simp [lead] at hlead
  | .obj xs, y, s, t, hs, ht, h => by
    have hlead := lead_eq h
    cases y with
    | obj ys =>
      rw [toList_compact_obj, toList_compact_obj, List.cons_append, List.cons_append,
        List.cons_inj_right, List.append_assoc, List.append_assoc] at h
      obtain ⟨rfl, hrest⟩ := members_inj xs ys
        (commas_eq_of_intercalate (apart_compactMembers xs) (apart_compactMembers ys) h)
      exact ⟨rfl, hrest⟩
    | bool b => cases b <;> simp [lead] at hlead
    | null | num | str | arr => simp [lead] at hlead

theorem items_inj : (xs ys : List Json) → {s t : List Char} →
    commas (compactItems xs) ++ ']' :: s = commas (compactItems ys) ++ ']' :: t → xs = ys ∧ s = t
  | [], [], s, t, h => ⟨rfl, (List.cons.inj h).2⟩
  | [], y :: ys, s, t, h => by
    rw [compactItems, compactItems, commas_cons] at h
    cases h
  | x :: xs, [], s, t, h => by
    rw [compactItems, compactItems, commas_cons] at h
    cases h
  | x :: xs, y :: ys, s, t, h => by
    rw [compactItems, compactItems, commas_cons, commas_cons, List.cons_inj_right] at h
    -- A comma or the closing bracket follows the first item on both sides.
    obtain ⟨rfl, hitems⟩ := compact_append_inj x y
      (fun _ _ => delimited_commas (.inl rfl) _ _) (fun _ _ => delimited_commas (.inl rfl) _ _) h
    obtain ⟨rfl, hrest⟩ := items_inj xs ys hitems
    exact ⟨rfl, hrest⟩

theorem members_inj : (xs ys : List (String × Json)) → {s t : List Char} →
    commas (compactMembers xs) ++ '\x7d' :: s = commas (compactMembers ys) ++ '\x7d' :: t →
    xs = ys ∧ s = t
  | [], [], s, t, h => ⟨rfl, (List.cons.inj h).2⟩
  | [], (k, y) :: ys, s, t, h => by
    rw [compactMembers, compactMembers, commas_cons] at h
    cases h
  | (k, x) :: xs, [], s, t, h => by
    rw [compactMembers, compactMembers, commas_cons] at h
    cases h
  | (k, x) :: xs, (l, y) :: ys, s, t, h => by
    rw [compactMembers, compactMembers, commas_cons, commas_cons, List.cons_inj_right] at h
    simp only [String.toList_append, List.append_assoc] at h
    obtain ⟨rfl, hvalue⟩ := quote_append_inj h
    rw [List.append_cancel_left_eq] at hvalue
    obtain ⟨rfl, hmembers⟩ := compact_append_inj x y
      (fun _ _ => delimited_commas (.inr rfl) _ _) (fun _ _ => delimited_commas (.inr rfl) _ _)
      hvalue
    obtain ⟨rfl, hrest⟩ := members_inj xs ys hmembers
    exact ⟨rfl, hrest⟩

end

/-- A value that is not a number ends where its text ends, whatever follows. -/
theorem eq_or_num_of_compact_append {x y : Json} {s t : List Char}
    (h : (compact x).toList ++ s = (compact y).toList ++ t) :
    (x = y ∧ s = t) ∨ ∃ m n, x = .num m ∧ y = .num n := by
  have hlead := lead_eq h
  by_cases hx : ∃ m, x = .num m
  · obtain ⟨m, rfl⟩ := hx
    obtain ⟨n, rfl⟩ := exists_num_of_lead hlead.symm
    exact .inr ⟨m, n, rfl, rfl⟩
  · refine .inl (compact_append_inj x y (fun m hm => absurd ⟨m, hm⟩ hx) ?_ h)
    rintro n rfl
    exact absurd (exists_num_of_lead hlead) hx

/-- Different values have different compact texts. -/
theorem compact_inj {x y : Json} (h : x.compact = y.compact) : x = y := by
  have hnil : Delimited [] := nofun
  refine (compact_append_inj x y (fun _ _ => hnil) (fun _ _ => hnil) ?_).1
  rw [h]

end Pipework.Json
