import Pipework.Proofs.Time.Calendar
import Pipework.Time.Instant

/-!
# Texts of instants

An instant is read back from its text (`Instant.ofText?_toText`), whatever its year, with all its
nanoseconds and as a leap second if it is one. Each part of the text is read up to where the next
one starts.
-/

namespace Pipework

theorem Text.not_isBlank_of_isDigit {c : Char} (h : c.isDigit) : Text.isBlank c = false := by
  have hcode : 48 ≤ c.toNat ∧ c.toNat ≤ 57 := by
    simpa [Char.isDigit, Char.le_def, UInt32.le_iff_toNat_le] using h
  simp [Text.isBlank, Text.blankRanges]
  omega

namespace Time.Instant

variable {width n : Nat} {digits rest : List Char}

/-! ## Numbers -/

theorem toList_padded : (padded width n).toList
    = List.replicate (width - (Nat.toDigits 10 n).length) '0' ++ Nat.toDigits 10 n :=
  String.toList_ofList

theorem isDigit_of_mem_padded {c : Char} (h : c ∈ (padded width n).toList) : c.isDigit := by
  rw [toList_padded, List.mem_append] at h
  rcases h with h | h
  · rw [(List.mem_replicate.1 h).2]
    decide
  · exact Nat.isDigit_of_mem_toDigits (by decide) (by decide) h

theorem padded_ne_nil : (padded width n).toList ≠ [] := by
  rw [toList_padded]
  exact List.append_ne_nil_of_right_ne_nil _ Nat.toDigits_ne_nil

theorem length_padded (hwidth : 0 < width) (hn : n < Nat.pow 10 width) :
    (padded width n).toList.length = width := by
  have hlength := (Nat.length_toDigits_le_iff (by decide) hwidth).2 hn
  rw [toList_padded, List.length_append, List.length_replicate]
  omega

/-- A padded number is read up to the width or to the first character that is no digit. -/
theorem number?_padded {bound : Nat} (hlength : (padded width n).toList.length ≤ bound)
    (hstop : (rest.take (bound - (padded width n).toList.length)).takeWhile Char.isDigit = []) :
    number? bound ((padded width n).toList ++ rest) = some (n, rest) := by
  have hread : (((padded width n).toList ++ rest).take bound).takeWhile Char.isDigit
      = (padded width n).toList := by
    rw [List.take_append, List.take_of_length_le hlength,
      List.takeWhile_append_of_pos fun _ => isDigit_of_mem_padded, hstop, List.append_nil]
  have hvalue : Nat.ofDigitChars 10 (padded width n).toList 0 = n := by
    rw [toList_padded, Nat.ofDigitChars_append, Nat.ofDigitChars_replicate_zero, Nat.mul_zero,
      Nat.ofDigitChars_ten_toDigits]
  have hnonempty : (padded width n).toList.isEmpty = false :=
    List.isEmpty_eq_false_iff.2 padded_ne_nil
  rw [Nat.ofDigitChars_eq_foldl] at hvalue
  rw [number?, hread, List.drop_left, hnonempty, if_neg Bool.false_ne_true]
  exact congrArg (fun value => some (value, rest)) hvalue

theorem number?_of_lt (hwidth : 0 < width) (hn : n < Nat.pow 10 width) :
    number? width ((padded width n).toList ++ rest) = some (n, rest) := by
  have hlength := length_padded hwidth hn
  exact number?_padded (Nat.le_of_eq hlength) (by simp [hlength])

theorem number?_of_stop {bound : Nat} {stop : Char}
    (hlength : (padded width n).toList.length ≤ bound) (hstop : stop.isDigit = false) :
    number? bound ((padded width n).toList ++ stop :: rest) = some (n, stop :: rest) := by
  refine number?_padded hlength ?_
  cases bound - (padded width n).toList.length <;> simp [hstop]

theorem trimStart_of_digits (hne : digits ≠ []) (hdigits : ∀ c ∈ digits, c.isDigit) :
    Text.trimStart (digits ++ rest) = digits ++ rest := by
  obtain ⟨c, cs, rfl⟩ := List.exists_cons_of_ne_nil hne
  simp [Text.trimStart, Text.not_isBlank_of_isDigit (hdigits c List.mem_cons_self)]

theorem field?_of_lt (hwidth : 0 < width) (hn : n < Nat.pow 10 width) :
    field? width ((padded width n).toList ++ rest) = some (n, rest) := by
  rw [field?, trimStart_of_digits padded_ne_nil fun _ => isDigit_of_mem_padded,
    number?_of_lt hwidth hn]

/-! ## Years and fractions -/

theorem year?_of_digits {value : Nat} (hne : digits ≠ []) (hdigits : ∀ c ∈ digits, c.isDigit)
    (hread : number? 4 (digits ++ rest) = some (value, rest)) :
    year? (digits ++ rest) = some ((value : Int), rest) := by
  rw [year?, trimStart_of_digits hne hdigits]
  obtain ⟨c, cs, rfl⟩ := List.exists_cons_of_ne_nil hne
  have hc : c.isDigit := hdigits c List.mem_cons_self
  split
  · rename_i heq
    cases heq
    cases hc
  · rename_i heq
    cases heq
    cases hc
  · rw [hread]
    rfl

theorem year?_of_sign {sign : Char} (hsign : sign = '-' ∨ sign = '+') :
    year? (sign :: ((padded 4 n).toList ++ '-' :: rest))
      = some (if sign = '-' then -(n : Int) else n, '-' :: rest) := by
  have hread : number? ((padded 4 n).toList ++ '-' :: rest).length
      ((padded 4 n).toList ++ '-' :: rest) = some (n, '-' :: rest) :=
    number?_of_stop (by simp) (by decide)
  have htrim (cs : List Char) : Text.trimStart (sign :: cs) = sign :: cs := by
    rcases hsign with rfl | rfl <;> rfl
  rw [year?, htrim]
  rcases hsign with rfl | rfl <;> simp only [hread, Option.map_some] <;> rfl

theorem year?_yearText (year : Int) :
    year? ((yearText year).toList ++ '-' :: rest) = some (year, '-' :: rest) := by
  rw [yearText]
  split
  · have hyear : (year.toNat : Int) = year := by omega
    rw [year?_of_digits padded_ne_nil (fun _ => isDigit_of_mem_padded)
      (number?_of_lt (by decide) (by omega : year.toNat < 10000)), hyear]
  · split
    · have hyear : -(year.natAbs : Int) = year := by omega
      rw [String.toList_append]
      exact (year?_of_sign (.inl rfl)).trans (by rw [if_pos rfl, hyear])
    · have hyear : (year.natAbs : Int) = year := by omega
      rw [String.toList_append]
      exact (year?_of_sign (.inr rfl)).trans (by rw [if_neg (by decide), hyear])

theorem nanos?_point {nanos : Nat} (hwidth : 0 < width) (hbound : width ≤ 9)
    (hn : n < Nat.pow 10 width) (hnanos : n * Nat.pow 10 (9 - width) = nanos) :
    nanos? (("." ++ padded width n).toList ++ ['Z']) = some (nanos, ['Z']) := by
  have hlength := length_padded hwidth hn
  have hread : number? 9 ((padded width n).toList ++ ['Z']) = some (n, ['Z']) :=
    number?_of_stop (by omega) (by decide)
  have hpoint : ("." ++ padded width n).toList ++ ['Z']
      = '.' :: ((padded width n).toList ++ ['Z']) := by
    rw [String.toList_append]
    rfl
  rw [hpoint, nanos?, hread]
  simp only [Option.bind_eq_bind, Option.bind_some, List.length_append, hlength,
    Nat.add_sub_cancel, hnanos]
  rfl

theorem nanos?_fractionText (hn : n < 1000000000) :
    nanos? ((fractionText n).toList ++ ['Z']) = some (n, ['Z']) := by
  rw [fractionText]
  split
  · subst n
    rfl
  · split
    · exact nanos?_point (by decide) (by decide) (by omega : n / 1000000 < 1000)
        (by omega : n / 1000000 * 1000000 = n)
    · split
      · exact nanos?_point (by decide) (by decide) (by omega : n / 1000 < 1000000)
          (by omega : n / 1000 * 1000 = n)
      · exact nanos?_point (by decide) (by decide) hn (Nat.mul_one n)

/-! ## Instants -/

/-- Whether an instant can be shown as a date and a time: its year is in range, and only the last
second of a minute is a leap second. -/
structure Valid (t : Instant) : Prop where
  nanos : t.nanos < 1000000000 ∨ t.nanos < 2000000000 ∧ t.seconds % 60 = 59
  year : yearInRange t.date.year = true

instance (t : Instant) : Decidable t.Valid :=
  decidable_of_iff ((t.nanos < 1000000000 ∨ t.nanos < 2000000000 ∧ t.seconds % 60 = 59)
    ∧ yearInRange t.date.year = true) ⟨fun h => ⟨h.1, h.2⟩, fun h => ⟨h.1, h.2⟩⟩

variable {t : Instant}

theorem Valid.clock_le (h : t.Valid) : t.clock.1 ≤ 23 ∧ t.clock.2.1 ≤ 59 ∧ t.clock.2.2 ≤ 60 := by
  have hnanos := h.nanos
  simp only [clock]
  omega

/-- The seconds and nanoseconds of an instant are known from its day, its clock, which shows a leap
second as the second 60, and its fraction. -/
theorem Valid.eq_of_clock (h : t.Valid) :
    (⟨t.date.toDays * 86400 + t.clock.1 * 3600 + t.clock.2.1 * 60
        + ((if t.clock.2.2 = 60 then 59 else t.clock.2.2 : Nat) : Int),
      if t.clock.2.2 = 60 then t.fraction + 1000000000 else t.fraction⟩ : Instant) = t := by
  have hnanos := h.nanos
  rw [date, toDays_ofDays]
  obtain ⟨seconds, nanos⟩ := t
  by_cases hleap : (⟨seconds, nanos⟩ : Instant).clock.2.2 = 60
  · rw [if_pos hleap, if_pos hleap]
    simp only [clock, fraction, mk.injEq] at hnanos hleap ⊢
    omega
  · rw [if_neg hleap, if_neg hleap]
    simp only [clock, fraction, mk.injEq] at hnanos hleap ⊢
    omega

theorem toList_toText (t : Instant) : t.toText.toList = (yearText t.date.year).toList
    ++ '-' :: ((padded 2 t.date.month).toList ++ '-' :: ((padded 2 t.date.day).toList
    ++ 'T' :: ((padded 2 t.clock.1).toList ++ ':' :: ((padded 2 t.clock.2.1).toList
    ++ ':' :: ((padded 2 t.clock.2.2).toList
    ++ ((fractionText t.fraction).toList ++ ['Z'])))))) := by
  have hhyphen : "-".toList = ['-'] := rfl
  have hcolon : ":".toList = [':'] := rfl
  have htime : "T".toList = ['T'] := rfl
  have hutc : "Z".toList = ['Z'] := rfl
  simp only [toText, String.toList_append, hhyphen, hcolon, htime, hutc, List.append_assoc,
    List.cons_append, List.nil_append]

theorem bind_of_eq_some {α β : Type} {x : Option α} {f : α → Option β} {a : α} (h : x = some a) :
    x >>= f = f a := by
  rw [h]
  rfl

/-- An instant is read back from its text. -/
theorem ofText?_toText (h : t.Valid) : ofText? t.toText = some t := by
  have hvalid : t.date.isValid = true := isValid_ofDays _
  obtain ⟨hmonth, hday⟩ := le_of_isValid hvalid
  obtain ⟨hhour, hminute, hsecond⟩ := h.clock_le
  have hfield {m n : Nat} {rest : List Char} (hn : n ≤ m) (hm : m < 100) :
      field? 2 ((padded 2 n).toList ++ rest) = some (n, rest) :=
    field?_of_lt (by decide) (Nat.lt_of_le_of_lt hn hm)
  have hhyphen (rest : List Char) : after? '-' ('-' :: rest) = some rest := rfl
  have hcolon (rest : List Char) : after? ':' (':' :: rest) = some rest := rfl
  have hfraction : nanos? ((fractionText t.fraction).toList ++ ['Z']) = some (t.fraction, ['Z']) :=
    nanos?_fractionText (Nat.mod_lt _ (by decide))
  have hutc : offset? (Text.trimStart ['Z']) = some (0, []) := rfl
  rw [ofText?, toList_toText, ofChars?]
  -- One step for each part of the text.
  refine (bind_of_eq_some (year?_yearText _)).trans ?_
  refine (bind_of_eq_some (hhyphen _)).trans ?_
  refine (bind_of_eq_some (hfield hmonth (by decide))).trans ?_
  refine (bind_of_eq_some (hhyphen _)).trans ?_
  refine (bind_of_eq_some (hfield hday (by decide))).trans ?_
  refine (bind_of_eq_some rfl).trans ?_
  refine (bind_of_eq_some (hfield hhour (by decide))).trans ?_
  refine (bind_of_eq_some (hcolon _)).trans ?_
  refine (bind_of_eq_some (hfield hminute (by decide))).trans ?_
  refine (bind_of_eq_some (hcolon _)).trans ?_
  refine (bind_of_eq_some (hfield hsecond (by decide))).trans ?_
  refine (bind_of_eq_some hfraction).trans ?_
  refine (bind_of_eq_some hutc).trans ?_
  have hend : (Text.trimStart []).isEmpty = true := rfl
  simp only [hend, h.year, hvalid, Nat.not_lt.2 hhour, Nat.not_lt.2 hminute, Nat.not_lt.2 hsecond,
    Int.sub_zero, h.eq_of_clock]
  rfl

end Time.Instant

end Pipework
