import Pipework.Json.Basic
import Pipework.Decimal.Binary

/-!
# Compact JSON text

The text has no spaces. Strings escape the quote, the backslash and the control characters below
U+0020, and nothing else. Doubles have the fewest digits that read back, in plain decimals from
1e-5 up to below 1e16 and otherwise with an exponent.
-/

namespace Pipework

namespace Decimal

/-- How the text of a double is laid out. -/
structure Format where
  /-- What stands before a positive exponent. -/
  exponentSign : String

/-- Zeros in the given number. -/
def zeros (n : Nat) : String := String.ofList (List.replicate n '0')

/-- The digits with a point after the first `n` of them. -/
def withPoint (digits : List Char) (n : Nat) : String :=
  String.ofList (digits.take n) ++ "." ++ String.ofList (digits.drop n)

/-- The text of `digits · 10^exponent`. Plain decimals always show a fraction. -/
def Format.text (f : Format) (d : Binary64.Decimal) : String :=
  let digits := Nat.toDigits 10 d.digits
  let point : Int := digits.length + d.exponent
  if d.digits = 0 then "0.0"
  else if -5 < point ∧ point ≤ 16 then
    if 0 ≤ d.exponent then String.ofList digits ++ zeros d.exponent.toNat ++ ".0"
    else if 0 < point then withPoint digits point.toNat
    else "0." ++ zeros (-point).toNat ++ String.ofList digits
  else
    let e := point - 1
    let head := if digits.length = 1 then String.ofList digits else withPoint digits 1
    head ++ "e" ++ (if e < 0 then "-" else f.exponentSign) ++ toString e.natAbs

/-- The text of a finite double. -/
def Format.double (f : Format) (bits : UInt64) : String :=
  let sign := if Binary64.isNegative bits then "-" else ""
  sign ++ f.text (Binary64.shortest (Binary64.significand bits) (Binary64.exponent bits))

end Decimal

namespace Json

/-- JSON writes the sign of every exponent. -/
def decimalFormat : Decimal.Format := ⟨"+"⟩

def numberText : Number → String
  | .int value => toString value
  | .double bits => decimalFormat.double bits

/-- Two lower-case hexadecimal digits. -/
def hexPair (n : Nat) : List Char :=
  [Nat.digitChar (n / 16), Nat.digitChar (n % 16)]

/-- How a character stands inside quotes. -/
def escape (c : Char) : List Char :=
  if c = '"' then ['\\', '"']
  else if c = '\\' then ['\\', '\\']
  else if c = '\n' then ['\\', 'n']
  else if c = '\r' then ['\\', 'r']
  else if c = '\t' then ['\\', 't']
  else if c = '\x08' then ['\\', 'b']
  else if c = '\x0c' then ['\\', 'f']
  else if c.toNat < 0x20 then ['\\', 'u', '0', '0'] ++ hexPair c.toNat
  else [c]

/-- A string in quotes. -/
def quote (s : String) : String :=
  "\"" ++ String.ofList (s.toList.flatMap escape) ++ "\""

mutual

/-- The compact text of a value. -/
def compact : Json → String
  | .null => "null"
  | .bool true => "true"
  | .bool false => "false"
  | .num n => numberText n
  | .str s => quote s
  | .arr items => "[" ++ ",".intercalate (compactItems items) ++ "]"
  | .obj members => "\x7b" ++ ",".intercalate (compactMembers members) ++ "\x7d"
termination_by structural a => a

def compactItems : List Json → List String
  | [] => []
  | x :: xs => compact x :: compactItems xs
termination_by structural a => a

def compactMembers : List (String × Json) → List String
  | [] => []
  | (k, x) :: xs => (quote k ++ ":" ++ compact x) :: compactMembers xs
termination_by structural a => a

end

end Json

end Pipework
