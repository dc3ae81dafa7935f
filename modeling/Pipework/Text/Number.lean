/-!
# Natural numbers in texts

A natural number is written in decimal digits, and a plus sign may stand before them. Reading
stops at the first character that is no digit or makes the number too large.
-/

namespace Pipework.Text

/-- Why a text is not a number below some bound. -/
inductive NumberError where
  | empty
  | invalidDigit
  | tooLarge
  deriving DecidableEq, Repr

def NumberError.message : NumberError → String
  | .empty => "cannot parse integer from empty string"
  | .invalidDigit => "invalid digit found in string"
  | .tooLarge => "number too large to fit in target type"

/-- Appends digits to a number that stays below a bound. -/
def appendDigits (bound : Nat) : Nat → List Char → Except NumberError Nat
  | n, [] => .ok n
  | n, c :: cs =>
    if !c.isDigit then .error .invalidDigit
    else
      let n := 10 * n + (c.toNat - '0'.toNat)
      if bound ≤ n then .error .tooLarge else appendDigits bound n cs

/-- The number below a bound that a text stands for. -/
def natural? (bound : Nat) (s : String) : Except NumberError Nat :=
  match s.toList with
  | [] => .error .empty
  | '+' :: [] => .error .invalidDigit
  | '+' :: cs => appendDigits bound 0 cs
  | cs => appendDigits bound 0 cs

end Pipework.Text
