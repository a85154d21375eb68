/-!
# Binary floating-point numbers of 64 bits

Sign, exponent field and fraction field of the binary interchange format, the exact rational value of each
finite number, and rounding of a quotient to the nearest number, a tie going to the even fraction. All of it
is arithmetic on naturals and rationals, so equality of numbers is equality of fields.
-/

namespace RuleTree

/-- A number of the 64-bit binary interchange format, by its three fields. -/
structure Binary64 where
  negative : Bool
  exponent : Nat
  fraction : Nat
  exponent_lt : exponent < 2048 := by omega
  fraction_lt : fraction < 4503599627370496 := by omega
deriving DecidableEq

namespace Binary64

/-! ### Classes of numbers -/

/-- The quiet number that stands for no number at all. -/
def nan : Binary64 := { negative := false, exponent := 2047, fraction := 2251799813685248 }

def infinity (negative : Bool) : Binary64 := { negative, exponent := 2047, fraction := 0 }

def zero (negative : Bool) : Binary64 := { negative, exponent := 0, fraction := 0 }

def isFinite (x : Binary64) : Bool := x.exponent != 2047

def isNaN (x : Binary64) : Bool := x.exponent == 2047 && x.fraction != 0

def isZero (x : Binary64) : Bool := x.exponent == 0 && x.fraction == 0

/-! ### Exact value -/

/-- The integer that a finite number multiplies by a power of two. -/
def significand (x : Binary64) : Nat :=
  if x.exponent = 0 then x.fraction else 4503599627370496 + x.fraction

/-- The exponent of the power of two that `significand` is multiplied by. -/
def power (x : Binary64) : Int :=
  if x.exponent = 0 then -1074 else (x.exponent : Int) - 1075

/-- Numerator and denominator of `n · 2 ^ e`. -/
def timesPowerOfTwo (n : Nat) (e : Int) : Nat × Nat :=
  if 0 ≤ e then (n * Nat.pow 2 e.toNat, 1) else (n, Nat.pow 2 (-e).toNat)

/-- The exact value of a finite number (of the others, the value their fields would have). -/
def exact (x : Binary64) : Rat :=
  let (num, den) := timesPowerOfTwo x.significand x.power
  mkRat (if x.negative then -(num : Int) else num) den

def isInteger (x : Binary64) : Bool := x.isFinite && x.exact.den == 1

/-! ### Rounding -/

/-- A quotient to the nearest natural, a half going to the even neighbour. -/
def divNearestEven (num den : Nat) : Nat :=
  let q := num / den
  let r := num % den
  if 2 * r < den then q
  else if den < 2 * r then q + 1
  else if q % 2 = 0 then q else q + 1

/-- The quotient `num / den` divided by `2 ^ e`. -/
def overPowerOfTwo (num den : Nat) (e : Int) : Nat × Nat :=
  if 0 ≤ e then (num, den * Nat.pow 2 e.toNat) else (num * Nat.pow 2 (-e).toNat, den)

/-- The exponent of the grid that a positive quotient is rounded on: 53 bits stay above it, unless the grid
of the smallest numbers is coarser. -/
def gridExponent (num den : Nat) : Int :=
  let e : Int := max (-1074) ((num.log2 : Int) - den.log2 - 52)
  let (n, d) := overPowerOfTwo num den e
  if n / d < 4503599627370496 then max (-1074) (e - 1) else e

/-- The number whose exponent and fraction fields, read as one natural, are `code`; infinite from the first
code that the finite numbers leave free. -/
def ofCode (negative : Bool) (code : Nat) : Binary64 :=
  if h : code < 9218868437227405312 then
    { negative, exponent := code / 4503599627370496, fraction := code % 4503599627370496 }
  else infinity negative

/-- The number nearest to a quotient, of the given sign. -/
def ofRatio (negative : Bool) (num den : Nat) : Binary64 :=
  if num = 0 then zero negative
  else
    let e := gridExponent num den
    let (n, d) := overPowerOfTwo num den e
    ofCode negative ((e + 1074).toNat * 4503599627370496 + divNearestEven n d)

/-- The number nearest to a rational; zero is positive. -/
def ofRat (q : Rat) : Binary64 := ofRatio (q.num < 0) q.num.natAbs q.den

/-- The number nearest to `digits · 10 ^ scale`. Far outside the range of finite numbers no power is
computed: such a decimal rounds to an infinity or to zero whatever its digits are. -/
def ofDecimal (negative : Bool) (digits : Nat) (scale : Int) : Binary64 :=
  if digits = 0 then zero negative
  else
    let magnitude : Int := scale + (Nat.toDigits 10 digits).length
    if 310 < magnitude then infinity negative
    else if magnitude < -330 then zero negative
    else if 0 ≤ scale then ofRatio negative (digits * Nat.pow 10 scale.toNat) 1
    else ofRatio negative digits (Nat.pow 10 (-scale).toNat)

/-! ### Arithmetic -/

def negate (x : Binary64) : Binary64 := if x.isNaN then x else { x with negative := !x.negative }

/-- The number nearest to the sum. Infinities of different signs have no sum. -/
def add (x y : Binary64) : Binary64 :=
  if x.isNaN || y.isNaN || (!x.isFinite && !y.isFinite && x.negative != y.negative) then nan
  else if !x.isFinite then x
  else if !y.isFinite then y
  else if x.isZero && y.isZero then zero (x.negative && y.negative)
  else ofRat (x.exact + y.exact)

/-- The number nearest to the product with the number that is nearest to a positive natural. -/
def scale (x : Binary64) (n : Nat) : Binary64 :=
  if !x.isFinite || x.isZero then x else ofRat (x.exact * (ofRatio false n 1).exact)

end Binary64

end RuleTree
