import Pipework.Yaml.Scalar

/-!
# From text to tokens

The lexer tracks indentation outside brackets and turns its changes into tokens. A scalar, alias or
bracket may turn out to be a key only when a colon follows it on the same line; until then it is a
candidate, and the token for the key is put in front of it afterwards.
-/

namespace Pipework.Yaml

/-- A token that may turn out to be a key. -/
structure KeyCandidate where
  /-- Nothing but a key may stand here. -/
  required : Bool
  /-- How many tokens come before it. -/
  position : Nat
  index : Nat
  line : Nat
  column : Nat

structure Lexer where
  cursor : Cursor
  /-- Column of the innermost block collection, -1 outside all. -/
  indent : Int := -1
  /-- Columns of the enclosing block collections. -/
  outer : List Int := []
  /-- The candidate at each level of brackets, the innermost first. -/
  candidates : List (Option KeyCandidate) := [none]
  /-- Whether a candidate may start here. -/
  keyAllowed : Bool := true
  tokens : Array Token := #[]

namespace Lexer

def inFlow (l : Lexer) : Bool := 1 < l.candidates.length

def emit (l : Lexer) (t : Token) : Lexer := { l with tokens := l.tokens.push t }

/-- Puts a token in front of the one at a position. -/
def emitAt (l : Lexer) (position : Nat) (t : Token) : Lexer :=
  { l with tokens :=
    l.tokens.extract 0 position ++ #[t] ++ l.tokens.extract position l.tokens.size }

def move (l : Lexer) (cursor : Cursor) : Lexer := { l with cursor }

/-- A candidate is given up at the end of its line or after 1024 bytes. -/
def isStale (l : Lexer) (k : KeyCandidate) : Bool :=
  k.line < l.cursor.line || k.index + 1024 < l.cursor.index

/-- Gives up candidates that are too far back, which must not be required. -/
def dropStale? (l : Lexer) : Option Lexer :=
  if l.candidates.any fun k => k.any fun k => l.isStale k && k.required then none
  else some { l with candidates := l.candidates.map fun k => k.filter fun k => !l.isStale k }

/-- The candidates with the innermost replaced. -/
def setCandidate (l : Lexer) (k : Option KeyCandidate) : Lexer :=
  { l with candidates := k :: l.candidates.tail }

/-- Gives up the innermost candidate, which must not be required. -/
def dropCandidate? (l : Lexer) : Option Lexer :=
  if (l.candidates.head?.join).any (·.required) then none else some (l.setCandidate none)

/-- Makes the next token a candidate where one is allowed. -/
def markCandidate? (l : Lexer) : Option Lexer :=
  if l.keyAllowed then do
    let l' ← l.dropCandidate?
    let c := l.cursor
    some (l'.setCandidate (some {
      required := !l.inFlow && l.indent == c.column
      position := l.tokens.size
      index := c.index
      line := c.line
      column := c.column }))
  else some l

/-- Opens a block collection at a column further right, its token standing at a position. -/
def openBlock (l : Lexer) (column position : Nat) (t : Token) : Lexer :=
  if l.inFlow ∨ (column : Int) ≤ l.indent then l
  else { l.emitAt position t with indent := column, outer := l.indent :: l.outer }

/-- Closes the block collections to the right of a column. -/
def closeBlocks (l : Lexer) (column : Int) : Lexer :=
  if l.inFlow then l
  else
    let columns := (l.indent :: l.outer).takeWhile fun i => column < i
    let kept := (l.indent :: l.outer).drop columns.length
    { l with
      indent := kept.headD (-1)
      outer := kept.tail
      tokens := l.tokens ++ (columns.map fun _ => Token.blockEnd).toArray }

/-- Passes over blanks, comments and breaks. -/
def skipToToken (l : Lexer) : Nat → Lexer
  | 0 => l
  | n + 1 =>
    let c := l.cursor
    let c := if c.column = 0 ∧ c.peek? = some '\ufeff' then c.advance 1 else c
    let c := c.skipWhile fun x => x = ' ' || (x = '\t' && (l.inFlow || !l.keyAllowed))
    let c := if c.peek? = some '#' then c.skipWhile fun x => !isBreak x else c
    if c.at? 0 isBreak then
      skipToToken { l with cursor := c.nextLine, keyAllowed := l.keyAllowed || !l.inFlow } n
    else l.move c

/-- A number of at most nine digits. -/
def versionNumber? (c : Cursor) : Option (Nat × Cursor) :=
  let digits := c.rest.takeWhile Char.isDigit
  if digits.isEmpty ∨ 9 < digits.length then none
  else some (Json.digitsValue digits, c.advance digits.length)

/-- A tag handle: an exclamation mark, or a word between two. In a directive it has to be one of
these; elsewhere it may also be a mark with a word after it. -/
def tagHandle? (inDirective : Bool) (c : Cursor) : Option (List Char × Cursor) :=
  match c.rest with
  | '!' :: rest =>
    let word := rest.takeWhile isWordChar
    let c := c.advance (1 + word.length)
    if c.peek? = some '!' then some ('!' :: word ++ ['!'], c.advance 1)
    else if inDirective ∧ !word.isEmpty then none
    else some ('!' :: word, c)
  | _ => none

def isUriChar (verbatim : Bool) (c : Char) : Bool :=
  isWordChar c || [';', '/', '?', ':', '@', '&', '=', '+', '$', '.', '%', '!', '~', '*', '\'',
    '(', ')'].contains c || (verbatim && [',', '[', ']'].contains c)

/-- A byte written as a percent sign and two hexadecimal digits. -/
def uriByte? : List Char → Option (UInt8 × List Char)
  | '%' :: a :: b :: rest => do
    let a ← Json.hexDigit? a
    let b ← Json.hexDigit? b
    some (UInt8.ofNat (16 * a + b), rest)
  | _ => none

/-- How many bytes follow the first byte of a character. -/
def continuationCount? (lead : UInt8) : Option Nat :=
  if lead < 0x80 then some 0
  else if lead / 32 = 6 then some 1
  else if lead / 16 = 14 then some 2
  else if lead / 8 = 30 then some 3
  else none

/-- A number of continuation bytes, each with the upper bits `10`. -/
def uriContinuation? : Nat → List Char → Option (Tag × List Char)
  | 0, cs => some ([], cs)
  | n + 1, cs => do
    let (b, cs) ← uriByte? cs
    if b / 64 = 2 then
      let (bytes, cs) ← uriContinuation? n cs
      some (b :: bytes, cs)
    else none

/-- The bytes of a character written with percent signs. Only the form of the bytes is looked at:
they may stand for a surrogate, say, or for a character that has a shorter form. -/
def uriEscape? (cs : List Char) : Option (Tag × List Char) := do
  let (lead, cs) ← uriByte? cs
  let (bytes, cs) ← uriContinuation? (← continuationCount? lead) cs
  some (lead :: bytes, cs)

/-- The bytes of a tag, with escapes resolved, and what follows them. -/
def uri? (verbatim : Bool) : Nat → List Char → Option (Tag × List Char)
  | 0, cs => some ([], cs)
  | n + 1, cs => match cs with
    | [] => some ([], [])
    | x :: rest =>
      if x = '%' then do
        let (bytes, rest) ← uriEscape? cs
        let (tag, rest) ← uri? verbatim n rest
        some (bytes ++ tag, rest)
      else if isUriChar verbatim x then
        (uri? verbatim n rest).map fun (tag, rest) => (x.toUInt8 :: tag, rest)
      else some ([], cs)

def uriAt? (verbatim : Bool) (c : Cursor) : Option (Tag × Cursor) :=
  (uri? verbatim c.rest.length c.rest).map fun (tag, rest) =>
    (tag, c.advance (c.rest.length - rest.length))

/-- A directive, with the rest of its line. -/
def directive? (c : Cursor) : Option (Token × Cursor) := do
  let c := c.advance 1
  let name := c.rest.takeWhile isWordChar
  let c := c.advance name.length
  if name.isEmpty || !c.isGapAt 0 then none
  else
    let c := c.skipWhile isSpace
    let (t, c) ←
      if name = ['Y', 'A', 'M', 'L'] then do
        let (major, c) ← versionNumber? c
        if c.peek? ≠ some '.' then none
        else
          let (minor, c) ← versionNumber? (c.advance 1)
          some (Token.versionDirective major minor, c)
      else if name = ['T', 'A', 'G'] then do
        let (handle, c) ← tagHandle? true c
        if !c.at? 0 isSpace then none
        else
          let (tag, c) ← uriAt? true (c.skipWhile isSpace)
          if tag.isEmpty || !c.isGapAt 0 then none
          else some (.tagDirective (String.ofList handle) tag.untilNull, c)
      else none
    let c := c.skipWhile isSpace
    let c := if c.peek? = some '#' then c.skipWhile fun x => !isBreak x else c
    if c.isLineEnd then some (t, c.nextLine) else none

/-- The name of an anchor or alias after its mark. -/
def anchorName? (c : Cursor) : Option (String × Cursor) :=
  let name := c.rest.takeWhile isWordChar
  let c := c.advance name.length
  let ends := c.isGapAt 0 || c.at? 0 fun x =>
    ['?', ':', ',', ']', '\x7d', '%', '@', '\x60'].contains x
  if name.isEmpty || !ends then none else some (String.ofList name, c)

/-- A tag: in angle brackets, or a handle and a suffix. -/
def tag? (inFlow : Bool) (c : Cursor) : Option (Token × Cursor) := do
  let (t, c) ←
    if c.at? 1 (· = '<') then do
      let (tag, c) ← uriAt? true (c.advance 2)
      if tag.isEmpty ∨ c.peek? ≠ some '>' then none
      else some (Token.tag "" tag.untilNull, c.advance 1)
    else do
      let (handle, c) ← tagHandle? false c
      let (tag, c) ← uriAt? false c
      if 1 < handle.length ∧ handle.getLast? = some '!' then
        if tag.isEmpty then none
        else some (Token.tag (String.ofList handle) tag.untilNull, c)
      else
        let suffix := Tag.untilNull (handle.tail.map Char.toUInt8 ++ tag)
        if suffix.isEmpty then some (Token.tag "" Tag.nonSpecific, c)
        else some (Token.tag "!" suffix, c)
  if c.isGapAt 0 || (inFlow && c.peek? = some ',') then some (t, c) else none

/-- Ends the text: all blocks are closed. -/
def finish? (l : Lexer) : Option Lexer := do
  let l ← (l.closeBlocks (-1)).dropCandidate?
  some (l.emit .streamEnd)

def directiveToken? (l : Lexer) : Option Lexer := do
  let l ← (l.closeBlocks (-1)).dropCandidate?
  let (t, c) ← directive? l.cursor
  some { (l.emit t).move c with keyAllowed := false }

def documentMark? (l : Lexer) (t : Token) : Option Lexer := do
  let l ← (l.closeBlocks (-1)).dropCandidate?
  some { (l.emit t).move (l.cursor.advance 3) with keyAllowed := false }

def openBracket? (l : Lexer) (t : Token) : Option Lexer := do
  let l ← l.markCandidate?
  some { (l.emit t).move (l.cursor.advance 1) with
    candidates := none :: l.candidates, keyAllowed := true }

def closeBracket? (l : Lexer) (t : Token) : Option Lexer := do
  let l ← l.dropCandidate?
  let outer := if l.inFlow then l.candidates.tail else l.candidates
  some { (l.emit t).move (l.cursor.advance 1) with candidates := outer, keyAllowed := false }

def comma? (l : Lexer) : Option Lexer := do
  let l ← l.dropCandidate?
  some { (l.emit .flowEntry).move (l.cursor.advance 1) with keyAllowed := true }

def dash? (l : Lexer) : Option Lexer := do
  if !l.inFlow && !l.keyAllowed then none
  else
    let l := l.openBlock l.cursor.column l.tokens.size .blockSequenceStart
    let l ← l.dropCandidate?
    some { (l.emit .blockEntry).move (l.cursor.advance 1) with keyAllowed := true }

def questionMark? (l : Lexer) : Option Lexer := do
  if !l.inFlow && !l.keyAllowed then none
  else
    let l := l.openBlock l.cursor.column l.tokens.size .blockMappingStart
    let l ← l.dropCandidate?
    some { (l.emit .key).move (l.cursor.advance 1) with keyAllowed := !l.inFlow }

def colon? (l : Lexer) : Option Lexer :=
  let after := l.cursor.advance 1
  match l.candidates.head?.join with
  | some k =>
    let l := (l.emitAt k.position .key).openBlock k.column k.position .blockMappingStart
    some { ((l.setCandidate none).emit .value).move after with keyAllowed := false }
  | none =>
    if !l.inFlow && !l.keyAllowed then none
    else
      let l := l.openBlock l.cursor.column l.tokens.size .blockMappingStart
      some { (l.emit .value).move after with keyAllowed := !l.inFlow }

def anchorToken? (l : Lexer) (token : String → Token) : Option Lexer := do
  let l ← l.markCandidate?
  let (name, c) ← anchorName? (l.cursor.advance 1)
  some { (l.emit (token name)).move c with keyAllowed := false }

def tagToken? (l : Lexer) : Option Lexer := do
  let l ← l.markCandidate?
  let (t, c) ← tag? l.inFlow l.cursor
  some { (l.emit t).move c with keyAllowed := false }

def blockScalar? (l : Lexer) (literal : Bool) : Option Lexer := do
  let l ← l.dropCandidate?
  let (text, c) ← Scalar.block? literal l.indent l.cursor
  let t := Token.scalar text (if literal then .literal else .folded)
  some { (l.emit t).move c with keyAllowed := true }

def quotedScalar? (l : Lexer) (double : Bool) : Option Lexer := do
  let l ← l.markCandidate?
  let (text, c) ← Scalar.quoted? double l.cursor
  let t := Token.scalar text (if double then .doubleQuoted else .singleQuoted)
  some { (l.emit t).move c with keyAllowed := false }

def plainScalar? (l : Lexer) : Option Lexer := do
  let l ← l.markCandidate?
  let (text, c, crossed) ← Scalar.plain? l.inFlow (l.indent + 1).toNat l.cursor
  some { (l.emit (.scalar text .plain)).move c with keyAllowed := crossed }

/-- The characters that start something else than a plain scalar. -/
def isIndicator (c : Char) : Bool :=
  ['-', '?', ':', ',', '[', ']', '\x7b', '\x7d', '#', '&', '*', '!', '|', '>', '\'', '"', '%', '@',
    '\x60'].contains c

/-- Whether a plain scalar can start with a character, given what follows it. -/
def startsPlain (inFlow : Bool) (x : Char) (c : Cursor) : Bool :=
  (!isSpace x && !isBreak x && !isIndicator x)
    || (x = '-' && !c.at? 1 isSpace)
    || (!inFlow && (x = '?' || x = ':') && !c.isGapAt 1)

/-- Reads the token that starts here. -/
def token? (l : Lexer) (x : Char) : Option Lexer :=
  let c := l.cursor
  let spaced := c.isGapAt 1
  if c.column = 0 ∧ x = '%' then l.directiveToken?
  else if c.isDocumentMark '-' then l.documentMark? .documentStart
  else if c.isDocumentMark '.' then l.documentMark? .documentEnd
  else if x = '[' then l.openBracket? .flowSequenceStart
  else if x = '\x7b' then l.openBracket? .flowMappingStart
  else if x = ']' then l.closeBracket? .flowSequenceEnd
  else if x = '\x7d' then l.closeBracket? .flowMappingEnd
  else if x = ',' then l.comma?
  else if x = '-' ∧ spaced then l.dash?
  else if x = '?' ∧ (l.inFlow ∨ spaced) then l.questionMark?
  else if x = ':' ∧ (l.inFlow ∨ spaced) then l.colon?
  else if x = '*' then l.anchorToken? .alias
  else if x = '&' then l.anchorToken? .anchor
  else if x = '!' then l.tagToken?
  else if x = '|' ∧ !l.inFlow then l.blockScalar? true
  else if x = '>' ∧ !l.inFlow then l.blockScalar? false
  else if x = '\'' then l.quotedScalar? false
  else if x = '"' then l.quotedScalar? true
  else if startsPlain l.inFlow x c then l.plainScalar?
  else none

/-- Reads tokens to the end of the text. -/
def run? : Nat → Lexer → Option Lexer
  | 0, _ => none
  | n + 1, l => do
    let l := l.skipToToken (l.cursor.rest.length + 1)
    let l ← l.dropStale?
    let l := l.closeBlocks l.cursor.column
    match l.cursor.peek? with
    | none => l.finish?
    | some x => run? n (← l.token? x)

end Lexer

/-- The tokens of a text, none if it is malformed. -/
def Token.ofText? (s : String) : Option (List Token) :=
  let cs := s.toList
  if cs.all isReadable then
    (Lexer.run? (cs.length + 1) { cursor := { rest := cs } }).map fun l => l.tokens.toList
  else none

end Pipework.Yaml
