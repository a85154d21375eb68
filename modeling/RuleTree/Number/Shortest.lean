import RuleTree.Number.Binary64
import RuleTree.Number.Decimal

/-!
# Shortest decimal text of a binary number

The fewest decimal digits that read back as a given number, of those the nearest to it, a tie going to the even
digit; and their layout as a text. The search is exact: for 1, 2, … 17 digits it tests the two decimals around the
number against the interval of values that round to it.
-/

namespace RuleTree

namespace Binary64

/-! ### The decimals that read back -/

/-- The interval of values that round to a finite positive number, and the number itself, over one
denominator. The ends belong to it when the significand is even. -/
structure RoundingInterval where
  low : Nat
  value : Nat
  high : Nat
  den : Nat
  closed : Bool

/-- Half a step to either side, or a quarter step below a power of two, where the numbers lie twice as close. -/
def roundingInterval (x : Binary64) : RoundingInterval :=
  let m := 4 * x.significand
  let below := if x.fraction = 0 ∧ 1 < x.exponent then 1 else 2
  let e := x.power - 2
  if 0 ≤ e then
    let s := Nat.pow 2 e.toNat
    { low := (m - below) * s, value := m * s, high := (m + 2) * s, den := 1, closed := x.significand % 2 == 0 }
  else
    { low := m - below, value := m, high := m + 2, den := Nat.pow 2 (-e).toNat, closed := x.significand % 2 == 0 }

/-- The position `k` with `10 ^ (k - 1) ≤ num / den < 10 ^ k`, for a positive quotient. -/
def decimalPoint (num den : Nat) : Int :=
  if den ≤ num then (Decimal.digits (num / den)).length
  else
    let d := (Decimal.digits (den / num)).length
    if num * Nat.pow 10 (d - 1) = den then 2 - (d : Int) else 1 - (d : Int)

def RoundingInterval.contains (i : RoundingInterval) (c : Nat) (g : Int) : Bool :=
  let (num, den) := if 0 ≤ g then (c * Nat.pow 10 g.toNat * i.den, 1) else (c * i.den, Nat.pow 10 (-g).toNat)
  if i.closed then i.low * den ≤ num && num ≤ i.high * den
  else i.low * den < num && num < i.high * den

/-- The decimal on the grid `10 ^ g` that is nearest to the number among those that read back. -/
def RoundingInterval.onGrid? (i : RoundingInterval) (g : Int) : Option Nat :=
  let (num, den) := if 0 ≤ g then (i.value, i.den * Nat.pow 10 g.toNat) else (i.value * Nat.pow 10 (-g).toNat, i.den)
  let c := num / den
  let nearest := divNearestEven num den
  let other := if nearest = c then c + 1 else c
  if i.contains nearest g then some nearest
  else if i.contains other g then some other
  else none

/-- The first grid with a hit, from `n` digits on, and the point's position is `k`. -/
def RoundingInterval.search (i : RoundingInterval) (k : Int) : Nat → Nat → Nat × Int
  | 0, n =>
    let g := k - n
    ((i.onGrid? g).getD 0, g)
  | more + 1, n =>
    let g := k - n
    match i.onGrid? g with
    | some c => (c, g)
    | none => i.search k more (n + 1)

/-- The digits of the shortest decimal of a finite positive number, without closing zeros, and the position of
the point: the decimal is `0.d₁d₂… · 10 ^ point`. -/
def shortest (x : Binary64) : List Char × Int :=
  let i := x.roundingInterval
  let (c, g) := i.search (decimalPoint i.value i.den) 16 1
  let digits := Decimal.digits c
  ((digits.reverse.dropWhile (· == '0')).reverse, g + digits.length)

/-! ### Layout -/

/-- How a number is laid out: which positions of the point are written without an exponent, how long an
exponent is at least, and the words for what is no finite number. -/
structure Layout where
  leastPoint : Int
  greatestPoint : Int
  exponentWidth : Nat
  infinity : String
  nan : String

/-- The digits around a point that may lie outside them; whole numbers keep one zero behind the point. -/
def positional (ds : List Char) (point : Int) : String :=
  if point ≤ 0 then "0." ++ String.ofList (List.replicate (-point).toNat '0' ++ ds)
  else
    let n := point.toNat
    if ds.length ≤ n then String.ofList (ds ++ List.replicate (n - ds.length) '0') ++ ".0"
    else String.ofList (ds.take n) ++ "." ++ String.ofList (ds.drop n)

/-- One digit before the point, the others behind it, and a signed exponent. -/
def scientific (layout : Layout) (ds : List Char) (point : Int) : String :=
  let tail := if ds.length ≤ 1 then "" else "." ++ String.ofList (ds.drop 1)
  let e := point - 1
  let sign := if e < 0 then "-" else "+"
  String.ofList (ds.take 1) ++ tail ++ "e" ++ sign ++ Decimal.padded layout.exponentWidth e.natAbs

def format (layout : Layout) (x : Binary64) : String :=
  if x.isNaN then layout.nan
  else
    let sign := if x.negative then "-" else ""
    if !x.isFinite then sign ++ layout.infinity
    else if x.isZero then sign ++ "0.0"
    else
      let (ds, point) := x.shortest
      if layout.leastPoint ≤ point ∧ point ≤ layout.greatestPoint then sign ++ positional ds point
      else sign ++ scientific layout ds point

end Binary64

end RuleTree
