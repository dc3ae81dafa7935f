/-!
# YAML tokens

A text is cut into scalars, indicators, and the marks that stand for changes of indentation.
-/

namespace Pipework.Yaml

/-- How a scalar was written. -/
inductive Style where
  | plain
  | singleQuoted
  | doubleQuoted
  | literal
  | folded
  deriving DecidableEq, Repr

/-- A tag, or a part of one, as bytes: escapes may give bytes that are not UTF-8. -/
abbrev Tag := List UInt8

namespace Tag

/-- The UTF-8 bytes of a text. -/
def ofText (s : String) : Tag := s.toUTF8.data.toList

/-- The tag that asks for no particular kind of value. -/
def nonSpecific : Tag := ofText "!"

/-- What the full form of a tag of the core schema begins with. -/
def core : Tag := ofText "tag:yaml.org,2002:"

/-- A tag counts up to its first null byte. -/
def untilNull (t : Tag) : Tag := t.takeWhile (· ≠ 0)

end Tag

inductive Token where
  | versionDirective (major minor : Nat)
  | tagDirective (handle : String) (expansion : Tag)
  | documentStart
  | documentEnd
  | blockSequenceStart
  | blockMappingStart
  | blockEnd
  | flowSequenceStart
  | flowSequenceEnd
  | flowMappingStart
  | flowMappingEnd
  | blockEntry
  | flowEntry
  | key
  | value
  | alias (name : String)
  | anchor (name : String)
  /-- The handle is empty for a tag given in full. -/
  | tag (handle : String) (suffix : Tag)
  | scalar (text : String) (style : Style)
  | streamEnd
  deriving DecidableEq, Repr

/-- Line feed, carriage return, next line, line separator and paragraph separator. -/
def isBreak (c : Char) : Bool :=
  c = '\n' || c = '\r' || c = '\u0085' || c = '\u2028' || c = '\u2029'

/-- Space or tab. -/
def isSpace (c : Char) : Bool := c = ' ' || c = '\t'

/-- What may stand in the name of an anchor, tag handle or directive. -/
def isWordChar (c : Char) : Bool := c.isAlphanum || c = '-' || c = '_'

/-- The characters that a text may hold. -/
def isReadable (c : Char) : Bool :=
  let n := c.toNat
  n = 0x09 || n = 0x0a || n = 0x0d || (0x20 ≤ n && n ≤ 0x7e) || n = 0x85
    || (0xa0 ≤ n && n ≤ 0xd7ff) || (0xe000 ≤ n && n ≤ 0xfffd) || 0x10000 ≤ n

/-- How many bytes of UTF-8 characters take. -/
def utf8Length (cs : List Char) : Nat := cs.foldl (fun n x => n + x.utf8Size) 0

/-- A place in a text, with what follows it. -/
structure Cursor where
  rest : List Char
  /-- How many bytes come before it. -/
  index : Nat := 0
  line : Nat := 0
  column : Nat := 0

namespace Cursor

def peek? (c : Cursor) : Option Char := c.rest.head?

/-- Whether the character `n` places ahead exists and has a property. -/
def at? (c : Cursor) (n : Nat) (p : Char → Bool) : Bool := (c.rest[n]?).any p

/-- Whether the place `n` ahead is a blank, a break or the end. -/
def isGapAt (c : Cursor) (n : Nat) : Bool := (c.rest[n]?).all fun x => isSpace x || isBreak x

/-- Whether the place ahead is a break or the end. -/
def isLineEnd (c : Cursor) : Bool := c.peek?.all isBreak

/-- The place `n` characters further on the same line. -/
def advance (c : Cursor) (n : Nat) : Cursor :=
  { c with
    rest := c.rest.drop n
    index := c.index + utf8Length (c.rest.take n)
    column := c.column + n }

/-- The place after the longest run of characters with a property, none of them a break. -/
def skipWhile (c : Cursor) (p : Char → Bool) : Cursor := c.advance (c.rest.takeWhile p).length

/-- The place after a line break. A carriage return and a line feed are one break. -/
def nextLine (c : Cursor) : Cursor :=
  match c.rest with
  | '\r' :: '\n' :: rest => { rest, index := c.index + 2, line := c.line + 1 }
  | x :: rest =>
    if isBreak x then { rest, index := c.index + x.utf8Size, line := c.line + 1 } else c
  | [] => c

/-- The line break ahead, as it is kept in a scalar. -/
def breakText (c : Cursor) : List Char :=
  match c.rest with
  | '\u2028' :: _ => ['\u2028']
  | '\u2029' :: _ => ['\u2029']
  | x :: _ => if isBreak x then ['\n'] else []
  | [] => []

/-- Whether three equal marks followed by a gap stand at the start of a line. -/
def isDocumentMark (c : Cursor) (mark : Char) : Bool :=
  c.column == 0 && [mark, mark, mark].isPrefixOf c.rest && c.isGapAt 3

/-- Whether a document starts or ends here. -/
def isDocumentBoundary (c : Cursor) : Bool := c.isDocumentMark '-' || c.isDocumentMark '.'

end Cursor

end Pipework.Yaml
