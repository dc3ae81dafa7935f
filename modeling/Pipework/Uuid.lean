/-!
# Universally unique identifiers

An identifier is a number of 128 bits, written in lower-case hexadecimal with hyphens after 8, 12,
16 and 20 digits. It is read in that form, without hyphens, in braces, or after `urn:uuid:`, all
in either case.
-/

namespace Pipework

structure Uuid where
  value : Nat
  value_lt : value < Nat.pow 2 128 := by decide
  deriving DecidableEq, Repr

namespace Uuid

/-- The last 128 bits of a number. -/
def ofNat (n : Nat) : Uuid := ⟨n % Nat.pow 2 128, Nat.mod_lt _ (by decide)⟩

instance : Inhabited Uuid := ⟨ofNat 0⟩

/-- The last `n` hexadecimal digits of a number. -/
def hexDigits (value : Nat) (n : Nat) : List Char :=
  (List.range n).reverse.map fun i => Nat.digitChar (value / Nat.pow 16 i % 16)

def toText (id : Uuid) : String :=
  let cs := hexDigits id.value 32
  let part (start size : Nat) := String.ofList ((cs.drop start).take size)
  "-".intercalate [part 0 8, part 8 4, part 12 4, part 16 4, part 20 12]

instance : ToString Uuid := ⟨toText⟩

/-- The number written by hexadecimal digits of either case. -/
def hexValue? (cs : List Char) : Option Nat :=
  cs.foldlM (fun n c =>
    if '0' ≤ c ∧ c ≤ '9' then some (16 * n + (c.toNat - 48))
    else if 'a' ≤ c ∧ c ≤ 'f' then some (16 * n + (c.toNat - 87))
    else if 'A' ≤ c ∧ c ≤ 'F' then some (16 * n + (c.toNat - 55))
    else none) 0

/-- The digits of a text with hyphens in the four usual places. -/
def withoutHyphens? (cs : List Char) : Option (List Char) :=
  if [8, 13, 18, 23].all fun i => cs[i]? = some '-' then
    some (cs.take 8 ++ (cs.drop 9).take 4 ++ (cs.drop 14).take 4 ++ (cs.drop 19).take 4
      ++ cs.drop 24)
  else none

def ofChars? (cs : List Char) : Option Uuid := do
  let digits ← match cs.length with
    | 32 => some cs
    | 36 => withoutHyphens? cs
    | 38 => if cs[0]? = some '\x7b' ∧ cs[37]? = some '\x7d' then
        withoutHyphens? ((cs.drop 1).take 36) else none
    | 45 =>
      if (cs.take 9).map Char.toLower = "urn:uuid:".toList then withoutHyphens? (cs.drop 9)
      else none
    | _ => none
  let value ← hexValue? digits
  if h : value < Nat.pow 2 128 then some ⟨value, h⟩ else none

def ofText? (s : String) : Option Uuid := ofChars? s.toList

end Uuid

end Pipework
