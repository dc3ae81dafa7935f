import Pipework.Text.Blank
import Pipework.Time.Calendar

/-!
# Instants

An instant is a number of seconds since 1970 in UTC and a number of nanoseconds. A leap second is
the second 59 with a billion or more nanoseconds. The text form has a date, a time, and an offset;
it is written in UTC with a `Z` and with 0, 3, 6 or 9 digits of the second, the fewest that are
exact. Reading is a little freer: blanks may stand between the parts and around the separators.
-/

namespace Pipework.Time

structure Instant where
  seconds : Int
  nanos : Nat := 0
  deriving DecidableEq, Repr, Inhabited

namespace Instant

/-- Whether one instant comes before another. -/
def before (a b : Instant) : Bool :=
  a.seconds < b.seconds || (a.seconds == b.seconds && a.nanos < b.nanos)

/-- A number in decimal digits, with zeros in front up to a width. -/
def padded (width n : Nat) : String :=
  let digits := Nat.toDigits 10 n
  String.ofList (List.replicate (width - digits.length) '0' ++ digits)

def date (t : Instant) : Date := Date.ofDays (t.seconds / 86400)

/-- Hour, minute and second of the day. A leap second is the second 60. -/
def clock (t : Instant) : Nat × Nat × Nat :=
  let s := (t.seconds % 86400).toNat
  (s / 3600, s / 60 % 60, s % 60 + t.nanos / 1000000000)

/-- Nanoseconds past the whole second. -/
def fraction (t : Instant) : Nat := t.nanos % 1000000000

/-- Four digits, or a sign and at least four where four do not suffice. -/
def yearText (year : Int) : String :=
  if 0 ≤ year ∧ year ≤ 9999 then padded 4 year.toNat
  else (if year < 0 then "-" else "+") ++ padded 4 year.natAbs

def fractionText (nanos : Nat) : String :=
  if nanos = 0 then ""
  else if nanos % 1000000 = 0 then "." ++ padded 3 (nanos / 1000000)
  else if nanos % 1000 = 0 then "." ++ padded 6 (nanos / 1000)
  else "." ++ padded 9 nanos

def toText (t : Instant) : String :=
  let d := t.date
  let (h, m, s) := t.clock
  yearText d.year ++ "-" ++ padded 2 d.month ++ "-" ++ padded 2 d.day ++ "T" ++ padded 2 h ++ ":"
    ++ padded 2 m ++ ":" ++ padded 2 s ++ fractionText t.fraction ++ "Z"

/-- At most `width` decimal digits, at least one, and what follows. -/
def number? (width : Nat) (cs : List Char) : Option (Nat × List Char) :=
  let digits := (cs.take width).takeWhile Char.isDigit
  if digits.isEmpty then none
  else some (digits.foldl (fun n c => 10 * n + (c.toNat - 48)) 0, cs.drop digits.length)

/-- A number after blanks. -/
def field? (width : Nat) (cs : List Char) : Option (Nat × List Char) :=
  number? width (Text.trimStart cs)

/-- A year after blanks: up to four digits, or a sign and any number of them. -/
def year? (cs : List Char) : Option (Int × List Char) :=
  match Text.trimStart cs with
  | '-' :: rest => (number? rest.length rest).map fun (n, r) => (-(n : Int), r)
  | '+' :: rest => (number? rest.length rest).map fun (n, r) => ((n : Int), r)
  | rest => (number? 4 rest).map fun (n, r) => ((n : Int), r)

/-- What follows a separator that may have blanks in front. -/
def after? (separator : Char) (cs : List Char) : Option (List Char) :=
  match Text.trimStart cs with
  | c :: rest => if c = separator then some rest else none
  | [] => none

/-- The nanoseconds written after a point; digits past the ninth are dropped. -/
def nanos? : List Char → Option (Nat × List Char)
  | '.' :: rest => do
    let (n, r) ← number? 9 rest
    let used := rest.length - r.length
    some (n * Nat.pow 10 (9 - used), r.dropWhile Char.isDigit)
  | cs => some (0, cs)

/-- Seconds east of UTC: hours, blanks and colons, minutes. -/
def signedOffset? (negative : Bool) (cs : List Char) : Option (Int × List Char) :=
  match cs with
  | h :: i :: rest =>
    if h.isDigit ∧ i.isDigit then
      match rest.dropWhile fun c => c = ':' || Text.isBlank c with
      | m :: n :: rest =>
        if '0' ≤ m ∧ m ≤ '5' ∧ n.isDigit then
          let hours : Int := (h.toNat - 48) * 10 + (i.toNat - 48)
          let minutes : Int := (m.toNat - 48) * 10 + (n.toNat - 48)
          let seconds := hours * 3600 + minutes * 60
          if seconds < 86400 then some (if negative then -seconds else seconds, rest) else none
        else none
      | _ => none
    else none
  | _ => none

/-- Seconds east of UTC, told by `UTC`, `Z` or a sign and a time. -/
def offset? (cs : List Char) : Option (Int × List Char) :=
  if (cs.take 3).map Char.toUpper = ['U', 'T', 'C'] then some (0, cs.drop 3)
  else match cs with
    | 'Z' :: rest | 'z' :: rest => some (0, rest)
    | '+' :: rest => signedOffset? false rest
    | '-' :: rest | '−' :: rest => signedOffset? true rest
    | _ => none

/-- The years an instant may fall in. -/
def yearInRange (year : Int) : Bool := -262143 ≤ year && year ≤ 262142

def ofChars? (cs : List Char) : Option Instant := do
  let (year, cs) ← year? cs
  let cs ← after? '-' cs
  let (month, cs) ← field? 2 cs
  let cs ← after? '-' cs
  let (day, cs) ← field? 2 cs
  let cs ← match cs with
    | 'T' :: rest | 't' :: rest | ' ' :: rest => some rest
    | _ => none
  let (hour, cs) ← field? 2 cs
  let cs ← after? ':' cs
  let (minute, cs) ← field? 2 cs
  let cs ← after? ':' cs
  let (second, cs) ← field? 2 cs
  let (nanos, cs) ← nanos? cs
  let (offset, cs) ← offset? (Text.trimStart cs)
  let date : Date := ⟨year, month, day⟩
  if !(Text.trimStart cs).isEmpty || !yearInRange year || !date.isValid || 23 < hour
      || 59 < minute || 60 < second then none
  else
    let leap := second = 60
    let second := if leap then 59 else second
    let seconds := date.toDays * 86400 + hour * 3600 + minute * 60 + second - offset
    let t : Instant := ⟨seconds, if leap then nanos + 1000000000 else nanos⟩
    if yearInRange t.date.year then some t else none

def ofText? (s : String) : Option Instant := ofChars? s.toList

end Instant

end Pipework.Time
