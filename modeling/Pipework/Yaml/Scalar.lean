import Pipework.Json.Parser
import Pipework.Yaml.Token

/-!
# Texts of scalars

Each style of scalar has its own rule for what its text is. Line breaks between the lines of a plain
or quoted scalar are folded: one break becomes a space, and of more breaks all but the first stay.
What has been read of a scalar is kept backwards, its last character first.
-/

namespace Pipework.Yaml

/-- The blanks and breaks between two parts of a scalar. -/
structure Gap where
  /-- Blanks before the first break. -/
  blanks : List Char := []
  /-- The first break. -/
  first : List Char := []
  /-- Further breaks. -/
  more : List Char := []
  /-- Whether a line has ended. -/
  crossed : Bool := false

/-- What a gap contributes to the text. -/
def Gap.text (g : Gap) : List Char :=
  if g.crossed then
    if g.first = ['\n'] then (if g.more.isEmpty then [' '] else g.more) else g.first ++ g.more
  else g.blanks

/-- Passes over blanks and breaks. With a minimal column given, a tab before it is refused on every
line but the first. -/
def Gap.scan? (minColumn : Option Nat) : Nat → Gap → Cursor → Option (Gap × Cursor)
  | 0, g, c => some (g, c)
  | n + 1, g, c => match c.peek? with
    | none => some (g, c)
    | some x =>
      if isSpace x then
        if g.crossed then
          if x = '\t' ∧ minColumn.any (c.column < ·) then none
          else Gap.scan? minColumn n g (c.advance 1)
        else Gap.scan? minColumn n { g with blanks := g.blanks ++ [x] } (c.advance 1)
      else if isBreak x then
        if g.crossed then
          Gap.scan? minColumn n { g with more := g.more ++ c.breakText } c.nextLine
        else
          Gap.scan? minColumn n { g with blanks := [], first := c.breakText, crossed := true }
            c.nextLine
      else some (g, c)

namespace Scalar

def isFlowIndicator (c : Char) : Bool :=
  c = ',' || c = '[' || c = ']' || c = '\x7b' || c = '\x7d'

/-- The part of a plain scalar up to a gap or to an indicator that ends the scalar. Inside brackets
a colon directly before an indicator is refused. -/
def plainRun? (inFlow : Bool) : List Char → Option (List Char)
  | [] => some []
  | x :: rest =>
    if isSpace x ∨ isBreak x then some []
    else if inFlow ∧ x = ':' ∧ rest.head?.any (fun y => isFlowIndicator y || y = '?') then none
    else if x = ':' ∧ rest.head?.all (fun y => isSpace y || isBreak y) then some []
    else if inFlow ∧ isFlowIndicator x then some []
    else (plainRun? inFlow rest).map (x :: ·)

/-- A plain scalar from its next part on: its text backwards, the place after it, and whether the
gap before that place crossed a line. -/
def plainTail? (inFlow : Bool) (minColumn : Nat) :
    Nat → List Char → Gap → Cursor → Option (List Char × Cursor × Bool)
  | 0, text, g, c => some (text, c, g.crossed)
  | n + 1, text, g, c =>
    if c.isDocumentBoundary ∨ c.peek? = some '#' then some (text, c, g.crossed)
    else do
      let run ← plainRun? inFlow c.rest
      if run.isEmpty then some (text, c, g.crossed)
      else
        let text := run.reverse ++ (g.text.reverse ++ text)
        let c := c.advance run.length
        if c.at? 0 fun x => isSpace x || isBreak x then
          let (g, c) ← Gap.scan? (some minColumn) c.rest.length {} c
          if !inFlow ∧ c.column < minColumn then some (text, c, g.crossed)
          else plainTail? inFlow minColumn n text g c
        else some (text, c, false)

/-- A plain scalar. Outside brackets its lines stand at least at the given column. -/
def plain? (inFlow : Bool) (minColumn : Nat) (c : Cursor) :
    Option (String × Cursor × Bool) :=
  (plainTail? inFlow minColumn (c.rest.length + 1) [] {} c).map fun (text, c, crossed) =>
    (String.ofList text.reverse, c, crossed)

/-- The character of a one-letter escape. -/
def escape? (c : Char) : Option Char :=
  match c with
  | '0' => some '\x00'
  | 'a' => some '\x07'
  | 'b' => some '\x08'
  | 't' | '\t' => some '\t'
  | 'n' => some '\n'
  | 'v' => some '\x0b'
  | 'f' => some '\x0c'
  | 'r' => some '\r'
  | 'e' => some '\x1b'
  | ' ' => some ' '
  | '"' => some '"'
  | '/' => some '/'
  | '\\' => some '\\'
  | 'N' => some '\u0085'
  | '_' => some '\u00a0'
  | 'L' => some '\u2028'
  | 'P' => some '\u2029'
  | _ => none

/-- How many hexadecimal digits follow an escape. -/
def escapeWidth? (c : Char) : Option Nat :=
  match c with
  | 'x' => some 2
  | 'u' => some 4
  | 'U' => some 8
  | _ => none

/-- The character with a hexadecimal code. -/
def codePoint? (digits : List Char) : Option Char := do
  let n ← digits.foldlM (fun n d => (Json.hexDigit? d).map (16 * n + ·)) 0
  if (0xd800 ≤ n ∧ n ≤ 0xdfff) ∨ 0x10ffff < n then none else some (Char.ofNat n)

/-- Adds the part of a quoted scalar up to a gap, the closing quote or the end to the text before
it, both backwards, and tells whether an escaped line break ended it. -/
def quotedRun? (double : Bool) : Nat → List Char → Cursor → Option (List Char × Cursor × Bool)
  | 0, text, c => some (text, c, false)
  | n + 1, text, c => match c.rest with
    | [] => some (text, c, false)
    | x :: rest =>
      if isSpace x ∨ isBreak x then some (text, c, false)
      else if !double ∧ x = '\'' then
        if rest.head? = some '\'' then quotedRun? double n ('\'' :: text) (c.advance 2)
        else some (text, c, false)
      else if double ∧ x = '"' then some (text, c, false)
      else if double ∧ x = '\\' then match rest with
        | [] => none
        | y :: after =>
          if isBreak y then some (text, (c.advance 1).nextLine, true)
          else match escapeWidth? y with
            | some width => do
              let digits := after.take width
              if digits.length < width then none
              else
                let z ← codePoint? digits
                quotedRun? double n (z :: text) (c.advance (2 + width))
            | none => do
              let z ← escape? y
              quotedRun? double n (z :: text) (c.advance 2)
      else quotedRun? double n (x :: text) (c.advance 1)

/-- A quoted scalar after its opening quote: its text backwards and the place after it. -/
def quotedTail? (double : Bool) : Nat → List Char → Cursor → Option (List Char × Cursor)
  | 0, _, _ => none
  | n + 1, text, c =>
    if c.isDocumentBoundary ∨ c.rest.isEmpty then none
    else do
      let (text, c, escapedBreak) ← quotedRun? double c.rest.length text c
      if c.peek? = some (if double then '"' else '\'') then some (text, c.advance 1)
      else
        let (g, c) ← Gap.scan? none c.rest.length { crossed := escapedBreak } c
        quotedTail? double n (g.text.reverse ++ text) c

/-- A quoted scalar, from its opening quote on. -/
def quoted? (double : Bool) (c : Cursor) : Option (String × Cursor) :=
  (quotedTail? double (c.rest.length + 1) [] (c.advance 1)).map fun (text, c) =>
    (String.ofList text.reverse, c)

/-- What becomes of the line breaks at the end of a block scalar. -/
inductive Chomping where
  | strip
  | clip
  | keep
  deriving DecidableEq

/-- The marks after the indicator of a block scalar: chomping and indentation, in any order. -/
def blockHeader? (c : Cursor) : Option (Chomping × Option Nat × Cursor) :=
  let chomping? (c : Cursor) : Option (Chomping × Cursor) := match c.peek? with
    | some '+' => some (.keep, c.advance 1)
    | some '-' => some (.strip, c.advance 1)
    | _ => none
  let indent? (c : Cursor) : Option (Option Nat × Cursor) := match c.peek? with
    | some x =>
      if x = '0' then none
      else if x.isDigit then some (some (x.toNat - 48), c.advance 1)
      else some (none, c)
    | none => some (none, c)
  match chomping? c with
  | some (chomping, c) => do
    let (indent, c) ← indent? c
    some (chomping, indent, c)
  | none => do
    let (indent, c) ← indent? c
    match if indent.isSome then chomping? c else none with
    | some (chomping, c) => some (chomping, indent, c)
    | none => some (.clip, indent, c)

/-- Passes over empty lines and indentation: the breaks, the widest indentation seen and the next
place. A tab in place of indentation is refused. -/
def blockBreaks? (indent : Option Nat) :
    Nat → List Char → Nat → Cursor → Option (List Char × Nat × Cursor)
  | 0, breaks, widest, c => some (breaks, widest, c)
  | n + 1, breaks, widest, c =>
    let blanks := (c.rest.takeWhile (· = ' ')).length
    let c := c.advance (match indent with
      | some i => min blanks (i - c.column)
      | none => blanks)
    let widest := max widest c.column
    if c.peek? = some '\t' ∧ indent.all (c.column < ·) then none
    else if c.at? 0 isBreak then
      blockBreaks? indent n (breaks ++ c.breakText) widest c.nextLine
    else some (breaks, widest, c)

/-- The lines of a block scalar, the text backwards. `pending` is the break after the last line,
`breaks` the empty lines since, and `indented` tells whether the last line began with a blank. -/
def blockLines? (literal : Bool) (indent : Nat) :
    Nat → List Char → List Char → List Char → Bool → Cursor →
      Option (List Char × List Char × List Char × Cursor)
  | 0, text, pending, breaks, _, c => some (text, pending, breaks, c)
  | n + 1, text, pending, breaks, indented, c =>
    if c.column ≠ indent ∨ c.rest.isEmpty then some (text, pending, breaks, c)
    else do
      let blank := c.at? 0 isSpace
      let folds := !literal && pending == ['\n'] && !indented && !blank
      let joint := if folds then (if breaks.isEmpty then [' '] else []) else pending
      let line := c.rest.takeWhile fun x => !isBreak x
      let c := c.advance line.length
      let pending := c.breakText
      let (more, _, c) ← blockBreaks? (some indent) (c.rest.length + 1) [] 0 c.nextLine
      let text := line.reverse ++ (breaks.reverse ++ (joint.reverse ++ text))
      blockLines? literal indent n text pending more blank c

/-- A block scalar, from its indicator on, inside a collection at the given indentation. -/
def block? (literal : Bool) (parent : Int) (c : Cursor) : Option (String × Cursor) := do
  let (chomping, increment, c) ← blockHeader? (c.advance 1)
  let c := c.skipWhile isSpace
  let c := if c.peek? = some '#' then c.skipWhile fun x => !isBreak x else c
  if !c.isLineEnd then none
  else
    let c := c.nextLine
    let least := (parent + 1).toNat
    let given := increment.map fun i => if parent < 0 then i else parent.toNat + i
    let (breaks, widest, c) ← blockBreaks? given (c.rest.length + 1) [] 0 c
    let indent := given.getD (max (max widest least) 1)
    let (text, pending, breaks, c) ← blockLines? literal indent (c.rest.length + 1) [] [] breaks
      false c
    let tail := match chomping with
      | .strip => []
      | .clip => pending
      | .keep => pending ++ breaks
    some (String.ofList (text.reverse ++ tail), c)

end Scalar

end Pipework.Yaml
