import Pipework.Json.Printer
import Pipework.Yaml.Value

/-!
# Writing YAML

Values are written in block style. Members of mappings follow each other at one indentation, items
of a sequence inside a mapping at that of the mapping. A text is written plain if it reads back as
itself, else in single quotes, or in double quotes if it has characters that need escapes; a text
with line feeds is written as a literal block.
-/

namespace Pipework.Yaml

namespace Style

/-- Whether a character stands for itself outside of double quotes. -/
def isPrintable (c : Char) : Bool :=
  let n := c.toNat
  n = 0x0a || (0x20 ≤ n && n ≤ 0x7e) || (0xa0 ≤ n && n ≤ 0xfffd && n ≠ 0xfeff) || 0x10000 ≤ n

/-- A blank, a break, or the end of the text. -/
def isGap (c : Option Char) : Bool := c.all fun c => isSpace c || isBreak c || c = '\x00'

/-- Characters that mean something at the start of a node. -/
def isIndicator (c : Char) : Bool := "#,[]\x7b\x7d&*!|>'\"%@`".toList.contains c

/-- Whether the first characters mean something at the start of a node. -/
def startsNode (cs : List Char) : Bool :=
  match cs with
  | [] => false
  | c :: rest =>
    isIndicator c || ((c = '?' || c = ':' || c = '-') && isGap rest.head?)
      || "---".toList.isPrefixOf cs || "...".toList.isPrefixOf cs

/-- Whether some later character ends a plain scalar: a colon before a gap or a hash after one. -/
def endsPlain : List Char → Bool
  | c :: d :: rest =>
    (d = ':' && isGap rest.head?) || (d = '#' && isGap (some c)) || endsPlain (d :: rest)
  | _ => false

/-- Whether two characters in a row satisfy two tests. -/
def hasPair (p q : Char → Bool) : List Char → Bool
  | c :: d :: rest => (p c && q d) || hasPair p q (d :: rest)
  | _ => false

def isBlank (c : Char) : Bool := c = ' '

/-- Whether there are characters that need escapes, or breaks after a blank, which would be lost. -/
def needsEscapes (cs : List Char) : Bool :=
  cs.any (fun c => !isPrintable c) || hasPair isBlank isBreak cs

def allowsPlain (cs : List Char) : Bool :=
  !startsNode cs && !endsPlain cs && !needsEscapes cs && !cs.any isBreak
    && !cs.head?.any isBlank && !cs.getLast?.any isBlank

def allowsSingleQuoted (cs : List Char) : Bool :=
  !needsEscapes cs && !hasPair isBreak isBlank cs

def allowsLiteral (cs : List Char) : Bool := !needsEscapes cs && !cs.getLast?.any isBlank

end Style

/-- Whether a plain scalar with this text is a text. -/
def readsAsText (s : String) : Bool :=
  plainJson? s == some (.str s) && !Numeral.hasLeadingZero s.toList

/-- The style that a text is written in. -/
def Style.ofText (s : String) : Style :=
  let cs := s.toList
  if cs.contains '\n' then
    if allowsLiteral cs then .literal else .doubleQuoted
  else if readsAsText s && allowsPlain cs then .plain
  else if allowsSingleQuoted cs then .singleQuoted
  else .doubleQuoted

namespace Printer

def spaces (n : Nat) : List Char := List.replicate n ' '

/-- The last hexadecimal digits of a number, in capitals. -/
def hexDigits (n width : Nat) : List Char :=
  (List.range width).reverse.map fun i => (Nat.digitChar (n / Nat.pow 16 i % 16)).toUpper

/-- The escape of a character in double quotes. -/
def escape (c : Char) : List Char :=
  match c with
  | '\x00' => ['\\', '0']
  | '\x07' => ['\\', 'a']
  | '\x08' => ['\\', 'b']
  | '\t' => ['\\', 't']
  | '\n' => ['\\', 'n']
  | '\x0b' => ['\\', 'v']
  | '\x0c' => ['\\', 'f']
  | '\r' => ['\\', 'r']
  | '\x1b' => ['\\', 'e']
  | '"' => ['\\', '"']
  | '\\' => ['\\', '\\']
  | '\u0085' => ['\\', 'N']
  | '\u2028' => ['\\', 'L']
  | '\u2029' => ['\\', 'P']
  | c =>
    if c.toNat ≤ 0xff then '\\' :: 'x' :: hexDigits c.toNat 2
    else if c.toNat ≤ 0xffff then '\\' :: 'u' :: hexDigits c.toNat 4
    else '\\' :: 'U' :: hexDigits c.toNat 8

def doubleQuoted (cs : List Char) : List Char :=
  '"' :: cs.flatMap (fun c =>
    if !Style.isPrintable c || isBreak c || c = '"' || c = '\\' then escape c else [c]) ++ ['"']

/-- Lines of a scalar, where what follows a break is indented. -/
def indentLines (indent : Nat) : Bool → List Char → List Char
  | _, [] => []
  | afterBreak, c :: cs =>
    if isBreak c then c :: indentLines indent true cs
    else (if afterBreak then spaces indent else []) ++ c :: indentLines indent false cs

/-- A text in single quotes, where each quote is written twice. -/
def singleQuoted (indent : Nat) (cs : List Char) : List Char :=
  let inner := indentLines indent false (cs.flatMap fun c => if c = '\'' then ['\'', '\''] else [c])
  '\'' :: inner ++ (if cs.getLast?.any isBreak then spaces indent else []) ++ ['\'']

/-- The marks of a literal block: its indentation if the text starts with a blank or break, and what
becomes of the breaks at its end. -/
def literalHints (cs : List Char) : List Char :=
  (if cs.head?.any fun c => Style.isBlank c || isBreak c then ['2'] else [])
    ++ match cs.reverse with
      | [] => ['-']
      | [c] => if isBreak c then ['+'] else ['-']
      | c :: d :: _ => if !isBreak c then ['-'] else if isBreak d then ['+'] else []

/-- A literal block, whose lines end the line that they stand on. -/
def literal (indent : Nat) (cs : List Char) : List Char :=
  '|' :: literalHints cs ++ '\n' :: indentLines indent true cs
    ++ if cs.getLast?.any isBreak then [] else ['\n']

/-- A scalar up to the end of its line. -/
def scalarLine (indent : Nat) (s : String) : List Char :=
  let cs := s.toList
  match Style.ofText s with
  | .plain => cs ++ ['\n']
  | .singleQuoted => singleQuoted indent cs ++ ['\n']
  | .doubleQuoted => doubleQuoted cs ++ ['\n']
  | .literal | .folded => literal indent cs

/-- Whether a key can stand on the line of its value: it is short and has no breaks. -/
def isSimpleKey (s : String) : Bool := s.utf8ByteSize ≤ 128 && !s.toList.any isBreak

/-- A key on the line of its value. -/
def simpleKey (s : String) : List Char :=
  match Style.ofText s with
  | .plain => s.toList
  | .singleQuoted => singleQuoted 0 s.toList
  | .doubleQuoted | .literal | .folded => doubleQuoted s.toList

/-- YAML writes no sign before a positive exponent. -/
def decimalFormat : Decimal.Format := ⟨""⟩

def number : Number → List Char
  | .int value => (toString value).toList
  | .double bits => (decimalFormat.double bits).toList

mutual

/-- What stands after a key and its colon in a mapping at some indentation. -/
def value (indent : Nat) : Json → List Char
  | .null => " null\n".toList
  | .bool b => ' ' :: (toString b).toList ++ ['\n']
  | .num n => ' ' :: number n ++ ['\n']
  | .str s => ' ' :: scalarLine (indent + 2) s
  | .arr [] => " []\n".toList
  | .arr (x :: xs) => '\n' :: items indent false (x :: xs)
  | .obj [] => " \x7b\x7d\n".toList
  | .obj (m :: ms) => '\n' :: members (indent + 2) false (m :: ms)
termination_by structural v => v

/-- What stands after a mark that starts an entry at some indentation; collections start on the line
of the mark. -/
def entry (indent : Nat) : Json → List Char
  | .null => " null\n".toList
  | .bool b => ' ' :: (toString b).toList ++ ['\n']
  | .num n => ' ' :: number n ++ ['\n']
  | .str s => ' ' :: scalarLine (indent + 2) s
  | .arr [] => " []\n".toList
  | .arr (x :: xs) => ' ' :: items (indent + 2) true (x :: xs)
  | .obj [] => " \x7b\x7d\n".toList
  | .obj (m :: ms) => ' ' :: members (indent + 2) true (m :: ms)
termination_by structural v => v

/-- The items of a sequence; the first may stand on a line that has been started. -/
def items (indent : Nat) (started : Bool) : List Json → List Char
  | [] => []
  | x :: xs =>
    (if started then [] else spaces indent) ++ '-' :: entry indent x ++ items indent false xs
termination_by structural xs => xs

/-- The members of a mapping; the first may stand on a line that has been started. A key that is not
simple is an entry of its own. -/
def members (indent : Nat) (started : Bool) : List (String × Json) → List Char
  | [] => []
  | (k, v) :: ms =>
    (if started then [] else spaces indent)
      ++ (if isSimpleKey k then simpleKey k ++ ':' :: value indent v
        else '?' :: ' ' :: scalarLine (indent + 2) k ++ spaces indent ++ ':' :: entry indent v)
      ++ members indent false ms
termination_by structural ms => ms

end

end Printer

/-- The document of an object. -/
def print : Json → String
  | .obj (m :: ms) => String.ofList (Printer.members 0 false (m :: ms))
  | v => String.ofList ((Printer.value 0 v).drop 1)

end Pipework.Yaml
