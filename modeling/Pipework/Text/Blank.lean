/-!
# Blanks and words

A blank is a character with the Unicode property White_Space. Trimming and splitting into words
know no other blanks; changes of case touch ASCII letters alone.
-/

namespace Pipework.Text

/-- The code points with the property White_Space, as inclusive ranges. -/
def blankRanges : List (Nat × Nat) :=
  [(0x09, 0x0d), (0x20, 0x20), (0x85, 0x85), (0xa0, 0xa0), (0x1680, 0x1680), (0x2000, 0x200a),
    (0x2028, 0x2029), (0x202f, 0x202f), (0x205f, 0x205f), (0x3000, 0x3000)]

def isBlank (c : Char) : Bool :=
  blankRanges.any fun (low, high) => low ≤ c.toNat && c.toNat ≤ high

/-- The text without the blanks at its start. -/
def trimStart (cs : List Char) : List Char := cs.dropWhile isBlank

/-- The text without the blanks at both ends. -/
def trimChars (cs : List Char) : List Char :=
  (((cs.dropWhile isBlank).reverse).dropWhile isBlank).reverse

def trim (s : String) : String := String.ofList (trimChars s.toList)

/-- Whether the text holds nothing but blanks. -/
def isBlankText (s : String) : Bool := s.toList.all isBlank

/-- The longest runs of characters that are not blank. -/
def wordCount : List Char → Bool → Nat
  | [], _ => 0
  | c :: cs, inside =>
    if isBlank c then wordCount cs false
    else if inside then wordCount cs true
    else wordCount cs true + 1

/-- How many words the text has. -/
def words (s : String) : Nat := wordCount s.toList false

/-- The text with ASCII capitals made small. -/
def lower (s : String) : String := s.map Char.toLower

/-- The pieces of a list between occurrences of a separator. -/
def splitAt (separator : Char) : List Char → List (List Char)
  | [] => [[]]
  | c :: cs =>
    if c = separator then [] :: splitAt separator cs
    else match splitAt separator cs with
      | [] => [[c]]
      | piece :: pieces => (c :: piece) :: pieces

/-- The text with a piece replaced wherever it stands, from the left. -/
def replaceChars (piece replacement : List Char) : Nat → List Char → List Char
  | 0, cs => cs
  | _ + 1, [] => []
  | n + 1, c :: cs =>
    if piece.isPrefixOf (c :: cs) then
      replacement ++ replaceChars piece replacement n ((c :: cs).drop piece.length)
    else c :: replaceChars piece replacement n cs

/-- Every occurrence of a non-empty piece replaced, from the left and without overlaps. -/
def replace (piece replacement s : String) : String :=
  String.ofList (replaceChars piece.toList replacement.toList s.length s.toList)

/-- Whether a piece stands somewhere in the text. -/
def containsChars (piece : List Char) : List Char → Bool
  | [] => piece.isEmpty
  | c :: cs => piece.isPrefixOf (c :: cs) || containsChars piece cs

def contains (piece s : String) : Bool := containsChars piece.toList s.toList

end Pipework.Text
