import Pipework.Document
import Pipework.Yaml.Node

/-!
# What YAML nodes stand for

A plain scalar is null, a truth value or a number if it is written like one, and else a text. Quoted
and block scalars are texts. Where a record asks for a text, every scalar is one.
-/

namespace Pipework.Yaml

/-- The words for null. -/
def isNullWord (s : String) : Bool := ["null", "Null", "NULL", "~"].contains s

/-- The words for truth values. -/
def boolWord? (s : String) : Option Bool :=
  if ["true", "True", "TRUE"].contains s then some true
  else if ["false", "False", "FALSE"].contains s then some false
  else none

namespace Numeral

def digit? (base : Nat) (c : Char) : Option Nat :=
  (Json.hexDigit? c).filter (· < base)

/-- The number written by one or more digits of a base. -/
def digits? (base : Nat) (cs : List Char) : Option Nat :=
  if cs.isEmpty then none
  else cs.foldlM (fun n c => (digit? base c).map (base * n + ·)) 0

/-- Digits after the mark of their base, `0x`, `0o` or `0b`. -/
def based? : List Char → Option Nat
  | '0' :: 'x' :: cs => digits? 16 cs
  | '0' :: 'o' :: cs => digits? 8 cs
  | '0' :: 'b' :: cs => digits? 2 cs
  | _ => none

def dropSign (cs : List Char) : List Char :=
  match cs with
  | '+' :: rest | '-' :: rest => rest
  | _ => cs

/-- More than one digit with a zero in front is no number. -/
def hasLeadingZero (cs : List Char) : Bool :=
  match dropSign cs with
  | '0' :: rest => !rest.isEmpty && rest.all Char.isDigit
  | _ => false

/-- A number without a minus sign. -/
def natural? (cs : List Char) : Option Nat :=
  let body := match cs with
    | '+' :: rest => rest
    | _ => cs
  (based? body).or (if hasLeadingZero cs then none else digits? 10 body)

/-- The size of a number with a minus sign. -/
def negative? : List Char → Option Nat
  | '-' :: rest =>
    (based? rest).or (if hasLeadingZero ('-' :: rest) then none else digits? 10 rest)
  | _ => none

/-- The integers that count as integers at all; longer ones are doubles. -/
def isIntegerSize (negative : Bool) (n : Nat) : Bool :=
  if negative then n ≤ Nat.pow 2 127 else n < Nat.pow 2 128

/-- An exponent with its sign. -/
def exponent? (cs : List Char) : Option Int :=
  match cs with
  | '-' :: rest => (digits? 10 rest).map fun n => -(n : Int)
  | '+' :: rest => (digits? 10 rest).map fun n => (n : Int)
  | _ => (digits? 10 cs).map fun n => (n : Int)

/-- The bits of a decimal number with an optional sign, point and exponent. -/
def double? (cs : List Char) : Option UInt64 := do
  let negative := cs.head? = some '-'
  let body := dropSign cs
  let whole := body.takeWhile Char.isDigit
  let rest := body.dropWhile Char.isDigit
  let (fraction, rest) := match rest with
    | '.' :: rest => (rest.takeWhile Char.isDigit, rest.dropWhile Char.isDigit)
    | _ => ([], rest)
  if whole.isEmpty ∧ fraction.isEmpty then none
  else
    let e ← match rest with
      | [] => some 0
      | c :: rest => if c = 'e' ∨ c = 'E' then exponent? rest else none
    Binary64.nearest? negative ⟨Json.digitsValue (whole ++ fraction), e - fraction.length⟩

/-- Infinities and the value that is no number. -/
def isSpecial (s : String) : Bool :=
  [".inf", ".Inf", ".INF", "+.inf", "+.Inf", "+.INF", "-.inf", "-.Inf", "-.INF", ".nan", ".NaN",
    ".NAN"].contains s

/-- A double as JSON, where infinities and the like are null. -/
def doubleJson? (s : String) : Option Json :=
  if isSpecial s then some .null
  else (double? s.toList).map fun bits => .num (.double bits)

/-- What a plain scalar that looks like an integer stands for. -/
inductive Integer where
  | value (n : Int)
  /-- An integer of more than 64 bits. -/
  | tooLarge

/-- The integer that a plain scalar is written like. -/
def integer? (s : String) : Option Integer :=
  let cs := s.toList
  match natural? cs, negative? cs with
  | some n, _ =>
    if n < Nat.pow 2 64 then some (.value n)
    else if isIntegerSize false n then some .tooLarge
    else none
  | none, some n =>
    if n ≤ Nat.pow 2 63 then some (.value (-n))
    else if isIntegerSize true n then some .tooLarge
    else none
  | none, none => none

end Numeral

/-- The value of an integer, unless it is too large. -/
def integerJson? : Numeral.Integer → Option Json
  | .value n => some (Json.ofInt n)
  | .tooLarge => none

/-- The value of a plain scalar. -/
def plainJson? (s : String) : Option Json :=
  if s.isEmpty || isNullWord s then some .null
  else match boolWord? s with
    | some b => some (.bool b)
    | none => match Numeral.integer? s with
      | some i => integerJson? i
      | none =>
        if Numeral.hasLeadingZero s.toList then some (.str s)
        else (Numeral.doubleJson? s).or (some (.str s))

/-- The full form of a tag of the core schema. -/
def coreTag (name : String) : Tag := Tag.core ++ Tag.ofText name

/-- A tag begins with an exclamation mark unless it is a full one. -/
def hasMark (tag : Tag) : Bool := Tag.nonSpecific.isPrefixOf tag

/-- A tag of UTF-8 that is not a full one names a kind of value that JSON does not have. -/
def isLocalTag (tag : Option Tag) : Bool :=
  tag.any fun t => hasMark t && (String.fromUTF8? ⟨t.toArray⟩).isSome

/-- The value of a scalar with a tag that is not local. -/
def taggedJson? (tag : Tag) (s : String) (style : Style) : Option Json :=
  if tag = coreTag "bool" then (boolWord? s).map .bool
  else if tag = coreTag "int" then (Numeral.integer? s).bind integerJson?
  else if tag = coreTag "float" then Numeral.doubleJson? s
  else if tag = coreTag "null" then (if isNullWord s then some .null else none)
  else if hasMark tag ∧ style = .plain then plainJson? s
  else some (.str s)

namespace Node

/-- A scalar in any style. -/
def text? : Node → Option String
  | .scalar _ text _ => some text
  | _ => none

/-- The text of a scalar that may stand for something else: a plain one, or a literal block with the
tag for it. -/
def wordFor? (name : String) : Node → Option String
  | .scalar _ text .plain => some text
  | .scalar tag text .literal => if tag = some (coreTag name) then some text else none
  | _ => none

def bool? (n : Node) : Option Bool := (n.wordFor? "bool").bind boolWord?

def natural? (n : Node) : Option Nat :=
  (n.wordFor? "int").bind fun s => (Numeral.natural? s.toList).filter (· < Nat.pow 2 64)

/-- Nothing at all, as opposed to a word for null. -/
def isBlank : Node → Bool
  | .void => true
  | .scalar _ text .plain => text.isEmpty
  | _ => false

/-- Whether an optional value is left out, told by nothing or a word for null without a tag, or by
a word for null with its tag. -/
def absence? : Node → Option Bool
  | .void => some true
  | .scalar none text .plain => some (text.isEmpty || isNullWord text)
  | .scalar (some tag) text .plain =>
    if tag = coreTag "null" then (if isNullWord text then some true else none) else some false
  | _ => some false

/-- The pairs of a mapping whose keys are scalars. Nothing at all is an empty mapping. -/
def table? : Node → Option (List (String × Node))
  | .mapping _ pairs => pairs.mapM fun (k, v) => k.text?.map (·, v)
  | n => if n.isBlank then some [] else none

def items? : Node → Option (List Node)
  | .sequence _ items => some items
  | n => if n.isBlank then some [] else none

mutual

/-- The value of a node, whatever it is. -/
def json? : Node → Option Json
  | .void => some .null
  | .scalar tag text style => match tag with
    | some t => if isLocalTag tag then none else taggedJson? t text style
    | none => if style = .plain then plainJson? text else some (.str text)
  | .sequence tag items =>
    if isLocalTag tag then none else (jsonItems? items).map .arr
  | .mapping tag pairs =>
    if isLocalTag tag then none else (jsonPairs? pairs .empty).map Json.ofDict
  | .unbounded => none
termination_by structural n => n

def jsonItems? : List Node → Option (List Json)
  | [] => some []
  | n :: ns => match json? n, jsonItems? ns with
    | some v, some vs => some (v :: vs)
    | _, _ => none
termination_by structural ns => ns

def jsonPairs? : List (Node × Node) → Dict Json → Option (Dict Json)
  | [], d => some d
  | (k, v) :: ns, d => match text? k, json? v with
    | some k, some v => jsonPairs? ns (d.insert k v)
    | _, _ => none
termination_by structural ns => ns

end

instance : Document Node where
  absence? := absence?
  text? := text?
  bool? := bool?
  natural? := natural?
  json? := json?
  items? := items?
  table? := table?
  fields? n := (table? n).map .named

end Node

end Pipework.Yaml
