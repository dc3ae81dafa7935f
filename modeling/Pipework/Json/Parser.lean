import Pipework.Json.Basic
import Pipework.Decimal.Binary

/-!
# Reading JSON text

`Json.parse?` reads one value surrounded by blanks. Of two members with one key the later wins. An
integer literal that fits neither an unsigned nor a signed 64-bit integer is read as a double.
-/

namespace Pipework.Json

/-- The space, tab, line feed and carriage return that may stand between tokens. -/
def isBlank (c : Char) : Bool := c = ' ' || c = '\t' || c = '\n' || c = '\r'

def skipBlanks : List Char → List Char := List.dropWhile isBlank

/-- The number written by decimal digits, and 0 for other characters. -/
def digitsValue (cs : List Char) : Nat := cs.foldl (fun n c => 10 * n + (c.toNat - 48)) 0

def hexDigit? (c : Char) : Option Nat :=
  if '0' ≤ c ∧ c ≤ '9' then some (c.toNat - 48)
  else if 'a' ≤ c ∧ c ≤ 'f' then some (c.toNat - 87)
  else if 'A' ≤ c ∧ c ≤ 'F' then some (c.toNat - 55)
  else none

/-- Four hexadecimal digits and what follows them. -/
def hexQuad? : List Char → Option (Nat × List Char)
  | a :: b :: c :: d :: rest => do
    let a ← hexDigit? a
    let b ← hexDigit? b
    let c ← hexDigit? c
    let d ← hexDigit? d
    some (((a * 16 + b) * 16 + c) * 16 + d, rest)
  | _ => none

/-- The character of an escape without digits. -/
def simpleEscape? (c : Char) : Option Char :=
  if c = '"' ∨ c = '\\' ∨ c = '/' then some c
  else if c = 'n' then some '\n'
  else if c = 'r' then some '\r'
  else if c = 't' then some '\t'
  else if c = 'b' then some '\x08'
  else if c = 'f' then some '\x0c'
  else none

/-- A character written as `\u` and four digits, or as two such halves. -/
def unicodeEscape? (cs : List Char) : Option (Char × List Char) := do
  let (high, rest) ← hexQuad? cs
  if 0xd800 ≤ high ∧ high < 0xdc00 then
    match rest with
    | '\\' :: 'u' :: rest =>
      let (low, rest) ← hexQuad? rest
      if 0xdc00 ≤ low ∧ low < 0xe000 then
        some (Char.ofNat (0x10000 + (high - 0xd800) * 0x400 + (low - 0xdc00)), rest)
      else none
    | _ => none
  else if 0xdc00 ≤ high ∧ high < 0xe000 then none
  else some (Char.ofNat high, rest)

/-- The rest of a string after its opening quote; `acc` holds what was read, backwards. -/
def stringTail? : Nat → List Char → List Char → Option (String × List Char)
  | 0, _, _ => none
  | n + 1, acc, cs => match cs with
    | '"' :: rest => some (String.ofList acc.reverse, rest)
    | '\\' :: 'u' :: rest => do
      let (c, rest) ← unicodeEscape? rest
      stringTail? n (c :: acc) rest
    | '\\' :: c :: rest => do
      let c ← simpleEscape? c
      stringTail? n (c :: acc) rest
    | c :: rest => if c.toNat < 0x20 then none else stringTail? n (c :: acc) rest
    | [] => none

/-- The integer part of a number has no superfluous zero in front. -/
def integerPart? (cs : List Char) : Option (List Char × List Char) :=
  let digits := cs.takeWhile Char.isDigit
  if digits.isEmpty ∨ (digits.head? = some '0' ∧ 1 < digits.length) then none
  else some (digits, cs.dropWhile Char.isDigit)

/-- A point and at least one digit, or nothing. -/
def fractionPart? : List Char → Option (List Char × List Char)
  | '.' :: rest =>
    let digits := rest.takeWhile Char.isDigit
    if digits.isEmpty then none else some (digits, rest.dropWhile Char.isDigit)
  | cs => some ([], cs)

/-- An exponent with an optional sign, or nothing. -/
def exponentPart? : List Char → Option (Option Int × List Char)
  | c :: rest =>
    if c = 'e' ∨ c = 'E' then
      let (negative, rest) := match rest with
        | '-' :: r => (true, r)
        | '+' :: r => (false, r)
        | r => (false, r)
      let digits := rest.takeWhile Char.isDigit
      if digits.isEmpty then none
      else
        let e : Int := digitsValue digits
        some (some (if negative then -e else e), rest.dropWhile Char.isDigit)
    else some (none, c :: rest)
  | [] => some (none, [])

/-- An integer where it fits, and otherwise the nearest double. -/
def integerNumber? (negative : Bool) (value : Nat) : Option Number :=
  if negative then
    if value = 0 ∨ Nat.pow 2 63 < value then (Binary64.nearest? true ⟨value, 0⟩).map .double
    else some (.int (-value))
  else if value < Nat.pow 2 64 then some (.int value)
  else (Binary64.nearest? false ⟨value, 0⟩).map .double

def number? (cs : List Char) : Option (Number × List Char) := do
  let (negative, cs) := match cs with
    | '-' :: r => (true, r)
    | r => (false, r)
  let (whole, cs) ← integerPart? cs
  let (fraction, cs) ← fractionPart? cs
  let (exponent, cs) ← exponentPart? cs
  if fraction.isEmpty ∧ exponent.isNone then
    let n ← integerNumber? negative (digitsValue whole)
    some (n, cs)
  else
    let e := exponent.getD 0 - fraction.length
    let bits ← Binary64.nearest? negative ⟨digitsValue (whole ++ fraction), e⟩
    some (.double bits, cs)

/-- What follows a fixed word. -/
def word? (w : List Char) (cs : List Char) : Option (List Char) :=
  if w.isPrefixOf cs then some (cs.drop w.length) else none

mutual

/-- A value at the head of the text; `depth` bounds the nesting. -/
def readValue? : Nat → List Char → Option (Json × List Char)
  | 0, _ => none
  | n + 1, cs => match cs with
    | 'n' :: _ => (word? ['n', 'u', 'l', 'l'] cs).map (.null, ·)
    | 't' :: _ => (word? ['t', 'r', 'u', 'e'] cs).map (.bool true, ·)
    | 'f' :: _ => (word? ['f', 'a', 'l', 's', 'e'] cs).map (.bool false, ·)
    | '"' :: rest => (stringTail? (rest.length + 1) [] rest).map fun (s, r) => (.str s, r)
    | '[' :: rest => match skipBlanks rest with
      | ']' :: rest => some (.arr [], rest)
      | rest => readItems? n [] rest
    | '\x7b' :: rest => match skipBlanks rest with
      | '\x7d' :: rest => some (.obj [], rest)
      | rest => readMembers? n .empty rest
    | cs => (number? cs).map fun (v, r) => (.num v, r)

/-- The items of an array from the next one on. -/
def readItems? : Nat → List Json → List Char → Option (Json × List Char)
  | 0, _, _ => none
  | n + 1, acc, cs => do
    let (v, rest) ← readValue? n (skipBlanks cs)
    match skipBlanks rest with
    | ',' :: rest => readItems? n (v :: acc) rest
    | ']' :: rest => some (.arr (v :: acc).reverse, rest)
    | _ => none

/-- The members of an object from the next one on. -/
def readMembers? : Nat → Dict Json → List Char → Option (Json × List Char)
  | 0, _, _ => none
  | n + 1, acc, cs => match skipBlanks cs with
    | '"' :: rest => do
      let (k, rest) ← stringTail? (rest.length + 1) [] rest
      match skipBlanks rest with
      | ':' :: rest =>
        let (v, rest) ← readValue? n (skipBlanks rest)
        match skipBlanks rest with
        | ',' :: rest => readMembers? n (acc.insert k v) rest
        | '\x7d' :: rest => some (ofDict (acc.insert k v), rest)
        | _ => none
      | _ => none
    | _ => none

end

/-- Reads a text that holds exactly one value. -/
def parse? (s : String) : Option Json :=
  let cs := s.toList
  match readValue? (2 * cs.length + 2) (skipBlanks cs) with
  | some (v, rest) => if (skipBlanks rest).isEmpty then some v else none
  | none => none

end Pipework.Json
