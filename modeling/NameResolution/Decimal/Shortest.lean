import NameResolution.Tree.Basic

/-!
# NameResolution.Decimal.Shortest

**The fewest digits that read back.** A double-precision number is written with the
fewest significant digits for which the nearest double is the number itself; of the
candidates with that many digits the nearest is taken, the larger one on a tie. The text
is always positional, and a whole number has no decimal point.

The search is exact: the number and the two ends of the interval of reals that round to
it are fractions over one power of two (`Dyadic`), and each decimal grid is tested in
natural-number arithmetic.
-/

namespace NameResolution

namespace Decimal

/-- A positive number `value / den`, with the ends of the interval of reals that round to it. -/
structure Dyadic where
  low : Nat
  value : Nat
  high : Nat
  den : Nat
  /-- Whether the ends themselves round to the number, as they do when its significand is even. -/
  closed : Bool

/-- The number `significand · 2 ^ (exponent - 1074)` with its rounding interval. Below the
smallest significand of full length the next smaller number is only half as far away as the
next larger one. -/
def Dyadic.ofParts (significand exponent : Nat) : Dyadic :=
  let below := if significand = Nat.pow 2 52 ∧ 0 < exponent then 1 else 2
  let scale := Nat.pow 2 exponent
  { low := (4 * significand - below) * scale
    value := 4 * significand * scale
    high := (4 * significand + 2) * scale
    den := Nat.pow 2 1076
    closed := significand % 2 = 0 }

/-- The power of ten by which numbers are scaled up, so that every decimal grid that matters
lies on the natural numbers. -/
def headroom : Nat := 350

namespace Dyadic

/-- Whether the multiple `c` of `10 ^ (j - headroom)` rounds to the number. -/
def accepts (x : Dyadic) (j c : Nat) : Bool :=
  let point := c * Nat.pow 10 j * x.den
  let low := x.low * Nat.pow 10 headroom
  let high := x.high * Nat.pow 10 headroom
  if x.closed then decide (low ≤ point) && decide (point ≤ high)
  else decide (low < point) && decide (point < high)

/-- The multiple of `10 ^ (j - headroom)` that stands for the number: of its two neighbours
on that grid the nearer one that rounds to it. -/
def onGrid? (x : Dyadic) (j : Nat) : Option Nat :=
  let grid := Nat.pow 10 j * x.den
  let scaled := x.value * Nat.pow 10 headroom
  let down := scaled / grid
  let up := down + 1
  match x.accepts j down, x.accepts j up with
  | true, true => if 2 * (scaled % grid) < grid then some down else some up
  | true, false => some down
  | false, true => some up
  | false, false => none

/-- The digits of the number, as a multiple of a power of ten: the coarsest grid that holds a
multiple which rounds to it. Seventeen digits always suffice. -/
def shortest (x : Dyadic) : Nat × Int :=
  let places := (Nat.toDigits 10 (x.value * Nat.pow 10 headroom / x.den)).length
  let found := (List.range 18).findSome? fun n =>
    (x.onGrid? (places - n)).map fun c => (c, (places - n : Int) - headroom)
  found.getD (0, 0)

end Dyadic

/-- The digits without the zeros at their end, each of which raises the exponent by one. -/
def trimZeros : List Char → Int → List Char × Int
  | [], e => ([], e)
  | d :: ds, e =>
    match trimZeros ds e with
    | ([], e') => if d = '0' then ([], e' + 1) else ([d], e')
    | (rest, e') => (d :: rest, e')

/-- The number `digits · 10 ^ exponent` in positional form. -/
def positional (digits : List Char) (exponent : Int) : List Char :=
  if 0 ≤ exponent then digits ++ List.replicate exponent.toNat '0'
  else
    let places := (-exponent).toNat
    if places < digits.length then
      digits.take (digits.length - places) ++ ['.'] ++ digits.drop (digits.length - places)
    else ['0', '.'] ++ List.replicate (places - digits.length) '0' ++ digits

end Decimal

namespace Binary64

/-- Whether the sign bit is set. -/
def isNegative (x : Binary64) : Bool := x.bits.toNat / Nat.pow 2 63 == 1

/-- The eleven bits of the exponent. -/
def exponentBits (x : Binary64) : Nat := x.bits.toNat / Nat.pow 2 52 % Nat.pow 2 11

/-- The fifty-two bits of the fraction. -/
def fractionBits (x : Binary64) : Nat := x.bits.toNat % Nat.pow 2 52

/-- The shortest decimal text that reads back as the number. -/
def text (x : Binary64) : String :=
  let sign := if x.isNegative then "-" else ""
  if x.exponentBits = 2047 then
    if x.fractionBits = 0 then sign ++ "inf" else "NaN"
  else if x.exponentBits = 0 ∧ x.fractionBits = 0 then sign ++ "0"
  else
    let dyadic :=
      if x.exponentBits = 0 then Decimal.Dyadic.ofParts x.fractionBits 0
      else Decimal.Dyadic.ofParts (Nat.pow 2 52 + x.fractionBits) (x.exponentBits - 1)
    let (c, e) := dyadic.shortest
    let (digits, e) := Decimal.trimZeros (Nat.toDigits 10 c) e
    sign ++ String.ofList (Decimal.positional digits e)

end Binary64

end NameResolution
