import Pipework.Uuid

/-!
# Texts of identifiers

An identifier is read back from its text (`Uuid.ofText?_toText`).
-/

namespace Pipework.Uuid

/-! ## Hexadecimal digits -/

@[simp] theorem length_hexDigits (value n : Nat) : (hexDigits value n).length = n := by
  simp [hexDigits]

theorem hexDigits_succ (value n : Nat) : hexDigits value (n + 1)
    = Nat.digitChar (value / Nat.pow 16 n % 16) :: hexDigits value n := by
  simp [hexDigits, List.range_succ]

/-- The value of a hexadecimal digit of either case. -/
def digitValue? (c : Char) : Option Nat :=
  if '0' ≤ c ∧ c ≤ '9' then some (c.toNat - 48)
  else if 'a' ≤ c ∧ c ≤ 'f' then some (c.toNat - 87)
  else if 'A' ≤ c ∧ c ≤ 'F' then some (c.toNat - 55)
  else none

theorem digitValue?_digitChar : ∀ digit < 16, digitValue? (Nat.digitChar digit) = some digit := by
  decide

theorem hexValue?_eq (cs : List Char) :
    hexValue? cs = cs.foldlM (fun n c => (digitValue? c).map (16 * n + ·)) 0 := by
  have hdigit : ∀ (n : Nat) (c : Char), (digitValue? c).map (16 * n + ·) = _ := fun n c => by
    simp only [digitValue?, apply_ite (Option.map (16 * n + ·)), Option.map_some, Option.map_none]
    rfl
  simp only [hexValue?, hdigit]

/-- Digits that are read after a number stand behind those of the number. -/
theorem foldlM_hexDigits (value n start : Nat) :
    (hexDigits value n).foldlM (fun n c => (digitValue? c).map (16 * n + ·)) start
      = some (start * Nat.pow 16 n + value % Nat.pow 16 n) := by
  induction n generalizing start with
  | zero => simp [hexDigits, Nat.mod_one]
  | succ n ih =>
    have hpow : Nat.pow 16 (n + 1) = Nat.pow 16 n * 16 := rfl
    rw [hexDigits_succ, List.foldlM_cons, digitValue?_digitChar _ (Nat.mod_lt _ (by decide))]
    refine (ih _).trans (congrArg some ?_)
    rw [hpow, Nat.mod_mul]
    grind

theorem hexValue?_hexDigits (value n : Nat) :
    hexValue? (hexDigits value n) = some (value % Nat.pow 16 n) := by
  rw [hexValue?_eq, foldlM_hexDigits, Nat.zero_mul, Nat.zero_add]

/-! ## Hyphens -/

theorem withoutHyphens?_append {a b c d e : List Char} (ha : a.length = 8) (hb : b.length = 4)
    (hc : c.length = 4) (hd : d.length = 4) :
    withoutHyphens? (a ++ '-' :: (b ++ '-' :: (c ++ '-' :: (d ++ '-' :: e))))
      = some (a ++ (b ++ (c ++ (d ++ e)))) := by
  simp [withoutHyphens?, List.getElem?_append, List.drop_append,
    List.drop_eq_nil_of_le, ha, hb, hc, hd]

/-- The parts of the text of an identifier. -/
theorem toList_toText (id : Uuid) : ∃ a b c d e, a.length = 8 ∧ b.length = 4 ∧ c.length = 4
    ∧ d.length = 4 ∧ e.length = 12 ∧ a ++ (b ++ (c ++ (d ++ e))) = hexDigits id.value 32
    ∧ id.toText.toList = a ++ '-' :: (b ++ '-' :: (c ++ '-' :: (d ++ '-' :: e))) := by
  have hlength := length_hexDigits id.value 32
  rw [toText]
  generalize hexDigits id.value 32 = digits at hlength
  have hpart (start size : Nat) :
      (digits.drop start).take size ++ digits.drop (start + size) = digits.drop start := by
    rw [← List.drop_drop, List.take_append_drop]
  refine ⟨digits.take 8, (digits.drop 8).take 4, (digits.drop 12).take 4, (digits.drop 16).take 4,
    digits.drop 20, ?_, ?_, ?_, ?_, ?_, ?_, ?_⟩
  · simp [hlength]
  · simp [hlength]
  · simp [hlength]
  · simp [hlength]
  · simp [hlength]
  · rw [hpart 16 4, hpart 12 4, hpart 8 4, List.take_append_drop]
  · simp [String.intercalate_cons_cons, hlength, List.take_of_length_le]

/-- An identifier is read back from its text. -/
theorem ofText?_toText (id : Uuid) : ofText? id.toText = some id := by
  obtain ⟨a, b, c, d, e, ha, hb, hc, hd, he, hdigits, htext⟩ := toList_toText id
  have hlength : id.toText.toList.length = 36 := by simp [htext, ha, hb, hc, hd, he]
  rw [ofText?, ofChars?, hlength]
  have hvalue : hexValue? (hexDigits id.value 32) = some id.value := by
    rw [hexValue?_hexDigits, Nat.mod_eq_of_lt id.value_lt]
  simp only [htext, withoutHyphens?_append ha hb hc hd, hdigits, hvalue, Option.bind_eq_bind,
    Option.bind_some, id.value_lt, dite_true]

/-- Different identifiers have different texts. -/
theorem toText_inj {a b : Uuid} : a.toText = b.toText ↔ a = b := by
  constructor
  · intro h
    have hread := congrArg ofText? h
    rwa [ofText?_toText, ofText?_toText, Option.some.injEq] at hread
  · rintro rfl
    rfl

end Pipework.Uuid
