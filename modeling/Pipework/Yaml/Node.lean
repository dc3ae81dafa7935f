import Pipework.Yaml.Lexer

/-!
# YAML nodes

Tokens are grouped to a tree of scalars, sequences and mappings. In a first tree anchors and aliases
are numbers; `Node.ofText?` puts the anchored nodes in place of the aliases. A text holds at most
one document.
-/

namespace Pipework.Yaml

/-- A tree with anchors. The places of scalars and collections ascend in the order of the text. -/
inductive Tree where
  | scalar (place : Nat) (anchor : Option Nat) (tag : Option Tag) (text : String)
      (style : Style)
  | sequence (place : Nat) (anchor : Option Nat) (tag : Option Tag) (items : List Tree)
  | mapping (place : Nat) (anchor : Option Nat) (tag : Option Tag)
      (pairs : List (Tree × Tree))
  | alias (anchor : Nat)
  deriving Inhabited

/-- A tree without aliases. -/
inductive Node where
  /-- What an empty text holds. -/
  | void
  | scalar (tag : Option Tag) (text : String) (style : Style)
  | sequence (tag : Option Tag) (items : List Node)
  | mapping (tag : Option Tag) (pairs : List (Node × Node))
  /-- A node that contains itself, or is nested or repeated beyond all bounds. -/
  | unbounded
  deriving Inhabited

namespace Tree

/-- What is known while a document is read: the tokens ahead, how many places are taken, the number
of each anchor, and the tag handles. -/
structure State where
  tokens : List Token
  places : Nat := 0
  anchors : List (String × Nat) := []
  handles : List (String × Tag) := []

/-- A step of reading that may find the tokens malformed. -/
abbrev Reader := StateT State Option

def peek : Reader Token := fun s => some (s.tokens.headD .streamEnd, s)

def skip : Reader Unit := fun s => some ((), { s with tokens := s.tokens.tail })

/-- The place of a node that starts now. A scalar or alias takes one place, a collection two. -/
def newPlace (size : Nat) : Reader Nat := fun s =>
  some (s.places, { s with places := s.places + size })

/-- The number of an anchor: how many different names have been anchored before. -/
def newAnchor (name : String) : Reader Nat := fun s =>
  let number := s.anchors.length
  some (number, { s with anchors := (name, number) :: s.anchors.filter (·.1 != name) })

def anchorNumber (name : String) : Reader Nat := fun s =>
  (s.anchors.lookup name).map (·, s)

/-- The full tag that a handle and a suffix stand for. -/
def fullTag (handle : String) (suffix : Tag) : Reader Tag := fun s =>
  if handle.isEmpty then some (suffix, s)
  else (s.handles.lookup handle).map fun expansion => (expansion ++ suffix, s)

/-- The anchor and tag in front of a node, in any order. -/
def properties : Reader (Option Nat × Option Tag) := do
  match ← peek with
  | .anchor name =>
    skip
    match ← peek with
    | .tag handle suffix =>
      skip
      let tag ← fullTag handle suffix
      return (some (← newAnchor name), some tag)
    | _ => return (some (← newAnchor name), none)
  | .tag handle suffix =>
    skip
    match ← peek with
    | .anchor name =>
      skip
      let tag ← fullTag handle suffix
      return (some (← newAnchor name), some tag)
    | _ => return (none, some (← fullTag handle suffix))
  | _ => return (none, none)

/-- A scalar that is left out. -/
def emptyScalar : Reader Tree := do return .scalar (← newPlace 1) none none "" .plain

/-- Where a node stands: in a block, in a block where dashes need no indentation, or in brackets. -/
inductive Position where
  | block
  | blockValue
  | flow
  deriving DecidableEq

/-- The tokens before which a node is left out. -/
def endsEntry : Token → Bool
  | .blockEntry | .key | .value | .blockEnd => true
  | _ => false

def endsBlockItem : Token → Bool
  | .blockEntry | .blockEnd => true
  | _ => false

def endsPair : Token → Bool
  | .key | .value | .blockEnd => true
  | _ => false

def endsFlowPart (close : Token) (t : Token) : Bool := t == .flowEntry || t == close

mutual

/-- A node; `fuel` bounds the number of steps. -/
def node : Nat → Position → Reader Tree
  | 0, _ => failure
  | fuel + 1, position => do
    match ← peek with
    | .alias name =>
      skip
      let _ ← newPlace 1
      return .alias (← anchorNumber name)
    | _ =>
      let (anchor, tag) ← properties
      let t ← peek
      let inBlock := position ≠ .flow
      match t with
      | .scalar text style =>
        skip
        return .scalar (← newPlace 1) anchor tag text style
      | .flowSequenceStart =>
        skip
        let place ← newPlace 2
        return .sequence place anchor tag (← flowItems fuel true [])
      | .flowMappingStart =>
        skip
        let place ← newPlace 2
        return .mapping place anchor tag (← flowPairs fuel true [])
      | .blockEntry =>
        if position = .blockValue then
          let place ← newPlace 2
          return .sequence place anchor tag (← looseItems fuel [])
        else emptyNode anchor tag
      | .blockSequenceStart =>
        if inBlock then
          skip
          let place ← newPlace 2
          return .sequence place anchor tag (← blockItems fuel [])
        else emptyNode anchor tag
      | .blockMappingStart =>
        if inBlock then
          skip
          let place ← newPlace 2
          return .mapping place anchor tag (← blockPairs fuel [])
        else emptyNode anchor tag
      | _ => emptyNode anchor tag

/-- A node that has an anchor or a tag and nothing else. -/
def emptyNode (anchor : Option Nat) (tag : Option Tag) : Reader Tree := do
  if anchor.isSome || tag.isSome then return .scalar (← newPlace 1) anchor tag "" .plain
  else failure

/-- The items of a block sequence. -/
def blockItems : Nat → List Tree → Reader (List Tree)
  | 0, _ => failure
  | fuel + 1, items => do
    match ← peek with
    | .blockEntry =>
      skip
      let item ← if endsBlockItem (← peek) then emptyScalar else node fuel .block
      blockItems fuel (item :: items)
    | .blockEnd =>
      skip
      return items.reverse
    | _ => failure

/-- The items of a sequence that is not indented more than the mapping around it. -/
def looseItems : Nat → List Tree → Reader (List Tree)
  | 0, _ => failure
  | fuel + 1, items => do
    match ← peek with
    | .blockEntry =>
      skip
      let item ← if endsEntry (← peek) then emptyScalar else node fuel .block
      looseItems fuel (item :: items)
    | _ => return items.reverse

/-- The pairs of a block mapping. -/
def blockPairs : Nat → List (Tree × Tree) → Reader (List (Tree × Tree))
  | 0, _ => failure
  | fuel + 1, pairs => do
    match ← peek with
    | .key =>
      skip
      let key ← if endsPair (← peek) then emptyScalar else node fuel .blockValue
      let value ← blockValue fuel
      blockPairs fuel ((key, value) :: pairs)
    | .blockEnd =>
      skip
      return pairs.reverse
    | _ => failure

/-- The value of a pair in a block mapping. -/
def blockValue : Nat → Reader Tree
  | 0 => failure
  | fuel + 1 => do
    match ← peek with
    | .value =>
      skip
      if endsPair (← peek) then emptyScalar else node fuel .blockValue
    | _ => emptyScalar

/-- The items of a sequence in brackets. An item may be a single pair. -/
def flowItems : Nat → Bool → List Tree → Reader (List Tree)
  | 0, _, _ => failure
  | fuel + 1, first, items => do
    match ← peek with
    | .flowSequenceEnd =>
      skip
      return items.reverse
    | t =>
      if !first then
        if t ≠ .flowEntry then failure
        skip
      match ← peek with
      | .flowSequenceEnd =>
        skip
        return items.reverse
      | .key =>
        skip
        let item ← flowPair fuel
        flowItems fuel false (item :: items)
      | _ =>
        let item ← node fuel .flow
        flowItems fuel false (item :: items)

/-- A pair that stands as an item of a sequence, after the mark of its key. -/
def flowPair : Nat → Reader Tree
  | 0 => failure
  | fuel + 1 => do
    let place ← newPlace 2
    let t ← peek
    let key ←
      if t == .value || endsFlowPart .flowSequenceEnd t then
        skip
        emptyScalar
      else node fuel .flow
    let value ← flowValue fuel .flowSequenceEnd
    return .mapping place none none [(key, value)]

/-- The value of a pair in brackets, left out before a comma or the closing bracket. -/
def flowValue : Nat → Token → Reader Tree
  | 0, _ => failure
  | fuel + 1, close => do
    match ← peek with
    | .value =>
      skip
      if endsFlowPart close (← peek) then emptyScalar else node fuel .flow
    | _ => emptyScalar

/-- The pairs of a mapping in braces. A pair may be a key alone. -/
def flowPairs : Nat → Bool → List (Tree × Tree) → Reader (List (Tree × Tree))
  | 0, _, _ => failure
  | fuel + 1, first, pairs => do
    match ← peek with
    | .flowMappingEnd =>
      skip
      return pairs.reverse
    | t =>
      if !first then
        if t ≠ .flowEntry then failure
        skip
      match ← peek with
      | .flowMappingEnd =>
        skip
        return pairs.reverse
      | .key =>
        skip
        let t ← peek
        let key ←
          if t == .value || endsFlowPart .flowMappingEnd t then emptyScalar
          else node fuel .flow
        let value ← flowValue fuel .flowMappingEnd
        flowPairs fuel false ((key, value) :: pairs)
      | _ =>
        let key ← node fuel .flow
        let value ← emptyScalar
        flowPairs fuel false ((key, value) :: pairs)

end

/-- The handles that need no directive. -/
def defaultHandles : List (String × Tag) :=
  [("!", Tag.nonSpecific), ("!!", Tag.core)]

/-- The directives of a document: at most one version, which has to be 1.1 or 1.2, and at most one
expansion for a handle. -/
def directives : Nat → Bool → List (String × Tag) → Reader (List (String × Tag))
  | 0, _, _ => failure
  | fuel + 1, versioned, handles => do
    match ← peek with
    | .versionDirective major minor =>
      skip
      if versioned || major != 1 || (minor != 1 && minor != 2) then failure
      else directives fuel true handles
    | .tagDirective handle expansion =>
      skip
      if (handles.lookup handle).isSome then failure
      else directives fuel versioned ((handle, expansion) :: handles)
    | _ => return handles

def isDirective : Token → Bool
  | .versionDirective .. | .tagDirective .. => true
  | _ => false

/-- Passes over marks of the end of a document. -/
def skipDocumentEnds : Nat → Reader Unit
  | 0 => pure ()
  | fuel + 1 => do
    if (← peek) == .documentEnd then
      skip
      skipDocumentEnds fuel

/-- The only document of a text, none where the text has none. -/
def document (fuel : Nat) : Reader (Option Tree) := do
  match ← peek with
  | .streamEnd => return none
  | t =>
    let tree ←
      if t == .documentStart || isDirective t then do
        let handles ← directives fuel false []
        modify fun s => { s with handles := handles ++ defaultHandles }
        if (← peek) != .documentStart then failure
        skip
        let t ← peek
        if isDirective t || t == .documentStart || t == .documentEnd || t == .streamEnd then
          emptyScalar
        else node fuel .block
      else do
        modify fun s => { s with handles := defaultHandles }
        node fuel .block
    skipDocumentEnds fuel
    if (← peek) == .streamEnd then return some tree else failure

mutual

/-- The anchored nodes of a tree, with their places. -/
def anchored : Tree → List (Nat × Nat × Tree)
  | .scalar place anchor tag text style =>
    (anchor.map fun a => (a, place, .scalar place anchor tag text style)).toList
  | .sequence place anchor tag items =>
    (anchor.map fun a => (a, place, .sequence place anchor tag items)).toList
      ++ anchoredItems items
  | .mapping place anchor tag pairs =>
    (anchor.map fun a => (a, place, .mapping place anchor tag pairs)).toList
      ++ anchoredPairs pairs
  | .alias _ => []
termination_by structural t => t

def anchoredItems : List Tree → List (Nat × Nat × Tree)
  | [] => []
  | t :: ts => anchored t ++ anchoredItems ts
termination_by structural t => t

def anchoredPairs : List (Tree × Tree) → List (Nat × Nat × Tree)
  | [] => []
  | (k, v) :: ts => anchored k ++ anchored v ++ anchoredPairs ts
termination_by structural t => t

end

/-- The node an alias stands for: the last one in the text with that number. -/
def target? (table : List (Nat × Nat × Tree)) (anchor : Nat) : Option Tree :=
  (table.foldl (fun best e =>
    if e.1 = anchor ∧ best.all (fun b => b.1 ≤ e.2.1) then some e.2 else best)
    (none : Option (Nat × Tree))).map (·.2)

/-- How many aliases may still be replaced. -/
abbrev Budget := StateM Nat

mutual

/-- The tree with its aliases replaced. `depth` more collections may be nested; an alias does not
count as one, so `fuel` has to allow for an alias in front of each. -/
def resolve (table : List (Nat × Nat × Tree)) : Nat → Nat → Tree → Budget Node
  | 0, _, _ => pure .unbounded
  | _ + 1, _, .scalar _ _ tag text style => pure (.scalar tag text style)
  | fuel + 1, depth, .sequence _ _ tag items => do
    if depth = 0 then return .unbounded
    return .sequence tag (← resolveItems table fuel (depth - 1) items)
  | fuel + 1, depth, .mapping _ _ tag pairs => do
    if depth = 0 then return .unbounded
    return .mapping tag (← resolvePairs table fuel (depth - 1) pairs)
  | fuel + 1, depth, .alias anchor => do
    let left ← get
    if left = 0 then return .unbounded
    set (left - 1)
    match target? table anchor with
    | some t => resolve table fuel depth t
    | none => return .unbounded

def resolveItems (table : List (Nat × Nat × Tree)) (fuel depth : Nat) :
    List Tree → Budget (List Node)
  | [] => pure []
  | t :: ts => do
    let n ← resolve table fuel depth t
    return n :: (← resolveItems table fuel depth ts)

def resolvePairs (table : List (Nat × Nat × Tree)) (fuel depth : Nat) :
    List (Tree × Tree) → Budget (List (Node × Node))
  | [] => pure []
  | (k, v) :: ts => do
    let k ← resolve table fuel depth k
    let v ← resolve table fuel depth v
    return (k, v) :: (← resolvePairs table fuel depth ts)

end

end Tree

/-- How many collections may stand inside each other. -/
def maxDepth : Nat := 128

/-- The document of a text, none if the text is malformed or has more than one. -/
def Node.ofText? (s : String) : Option Node := do
  let tokens ← Token.ofText? s
  let (tree, state) ← (Tree.document (4 * tokens.length + 4)).run { tokens }
  match tree with
  | none => some .void
  | some tree =>
    let (node, _) :=
      (Tree.resolve tree.anchored (2 * maxDepth + 2) maxDepth tree).run (100 * state.places)
    some node

end Pipework.Yaml
