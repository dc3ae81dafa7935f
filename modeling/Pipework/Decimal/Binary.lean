/-!
# Binary fractions and decimal digits

A finite double is `(-1)^s · m · 2^q`. `Binary64.shortest` finds the fewest decimal digits that
read back as the same double, and `Binary64.nearest` the double nearest to a decimal number. Both
work on exact integers.
-/

namespace Pipework.Binary64

/-- The sign bit. -/
def isNegative (bits : UInt64) : Bool := bits >>> 63 != 0

/-- The integer `m` of `m · 2^q`. -/
def significand (bits : UInt64) : Nat :=
  let fraction := (bits &&& 0xfffffffffffff).toNat
  if bits >>> 52 &&& 0x7ff == 0 then fraction else Nat.pow 2 52 + fraction

/-- The integer `q` of `m · 2^q`. -/
def exponent (bits : UInt64) : Int :=
  let field := (bits >>> 52 &&& 0x7ff).toNat
  if field = 0 then -1074 else (field : Int) - 1075

/-- A decimal number `digits · 10^exponent`. -/
structure Decimal where
  digits : Nat
  exponent : Int
  deriving DecidableEq, Repr

/-- The real numbers that round to a double: the double itself is `center / scale`, and the bounds
belong to the interval when `closed`. -/
structure Interval where
  low : Nat
  center : Nat
  high : Nat
  scale : Nat
  closed : Bool

/-- All numbers closer to `m · 2^q` than to a neighbouring double. The gap below a power of two is
half the gap above it. -/
def interval (m : Nat) (q : Int) : Interval :=
  let below := if m = Nat.pow 2 52 ∧ -1074 < q then 1 else 2
  let factor := if q < 2 then 1 else Nat.pow 2 (q - 2).toNat
  let scale := if q < 2 then Nat.pow 2 (2 - q).toNat else 1
  ⟨(4 * m - below) * factor, 4 * m * factor, (4 * m + 2) * factor, scale, m % 2 == 0⟩

/-- Whether `c · 10^e` lies in the interval, told from the two scaled numbers. -/
def Interval.holds (i : Interval) (point unit : Nat) : Bool :=
  if i.closed then i.low * unit ≤ point && point ≤ i.high * unit
  else i.low * unit < point && point < i.high * unit

/-- The multiple of `10^e` inside the interval that is nearest to its centre; of two equally near
ones, the even multiple. -/
def Interval.gridPoint? (i : Interval) (e : Int) : Option Nat :=
  let unit := if e < 0 then Nat.pow 10 (-e).toNat else 1
  let step := i.scale * (if e < 0 then 1 else Nat.pow 10 e.toNat)
  let c := i.center * unit / step
  let rest := i.center * unit % step
  let lower := i.holds (c * step) unit && c != 0
  let upper := i.holds ((c + 1) * step) unit
  match lower, upper with
  | true, true =>
    if 2 * rest < step then some c
    else if step < 2 * rest then some (c + 1)
    else if c % 2 = 0 then some c else some (c + 1)
  | true, false => some c
  | false, true => some (c + 1)
  | false, false => none

/-- Tries grids of one more digit each until one has a point in the interval. -/
def Interval.search (i : Interval) (e : Int) : Nat → Decimal
  | 0 => ⟨i.center / i.scale, 0⟩
  | n + 1 => match i.gridPoint? e with
    | some c => ⟨c, e⟩
    | none => i.search (e - 1) n

/-- An exponent `e` with `10^e` above the number: `m · 2^q < 2^k` where `k` is the bit length. -/
def topExponent (m : Nat) (q : Int) : Int :=
  ((m.log2 : Int) + 1 + q) * 30103 / 100000 + 1

/-- Moves trailing zeros of the digits into the exponent. -/
def Decimal.normalize (d : Decimal) : Nat → Decimal
  | 0 => d
  | n + 1 =>
    if d.digits ≠ 0 ∧ d.digits % 10 = 0 then
      Decimal.normalize ⟨d.digits / 10, d.exponent + 1⟩ n
    else d

/-- The decimal number with the fewest digits among those that read back as `m · 2^q`. -/
def shortest (m : Nat) (q : Int) : Decimal :=
  if m = 0 then ⟨0, 0⟩ else ((interval m q).search (topExponent m q) 24).normalize 20

/-- `num / den` rounded to an integer, a half going to the even neighbour. -/
def roundHalfEven (num den : Nat) : Nat :=
  let c := num / den
  let r := num % den
  if 2 * r < den ∨ (2 * r = den ∧ c % 2 = 0) then c else c + 1

/-- The greatest `q` with `2^52 · 2^q ≤ num / den`, but at least the exponent of the subnormals. -/
def scaleFor (num den : Nat) : Int :=
  let guess : Int := (num.log2 : Int) - den.log2 - 52
  let fits (q : Int) : Bool :=
    if q < 0 then Nat.pow 2 52 * den ≤ num * Nat.pow 2 (-q).toNat
    else Nat.pow 2 52 * den * Nat.pow 2 q.toNat ≤ num
  let q := if fits guess then guess else guess - 1
  if q < -1074 then -1074 else q

/-- The bits of the double nearest to the positive fraction `num / den`, none when it is too
large. -/
def ofFraction? (num den : Nat) : Option UInt64 :=
  let q := scaleFor num den
  let m := if q < 0 then roundHalfEven (num * Nat.pow 2 (-q).toNat) den
    else roundHalfEven num (den * Nat.pow 2 q.toNat)
  let (m, q) := if m = Nat.pow 2 53 then (Nat.pow 2 52, q + 1) else (m, q)
  if 971 < q then none
  else if m < Nat.pow 2 52 then some (UInt64.ofNat m)
  else some (UInt64.ofNat ((q + 1075).toNat * Nat.pow 2 52 + (m - Nat.pow 2 52)))

/-- The bits of the double nearest to `± digits · 10^exponent`, none when it is too large. -/
def nearest? (negative : Bool) (d : Decimal) : Option UInt64 :=
  let sign : UInt64 := if negative then 0x8000000000000000 else 0
  if d.digits = 0 then some sign
  else
    let size := (Nat.toDigits 10 d.digits).length + d.exponent
    if 310 < size then none
    else if size < -330 then some sign
    else if d.exponent < 0 then
      (ofFraction? d.digits (Nat.pow 10 (-d.exponent).toNat)).map (· ||| sign)
    else (ofFraction? (d.digits * Nat.pow 10 d.exponent.toNat) 1).map (· ||| sign)

end Pipework.Binary64
