import RuleTree.Number.Shortest

/-!
# Real numbers as data writes them

An integer of any size, an exact ratio or a binary floating-point number. They are compared by their exact values on
the rational line with its two infinities; what is no number at all (`is_number`) compares with nothing.
-/

namespace RuleTree

/-! ### The rational line with its ends -/

/-- A rational or one of the two infinities. -/
inductive ExtendedRat
  | negInf
  | finite (value : Rat)
  | posInf
deriving DecidableEq

namespace ExtendedRat

def lt : ExtendedRat → ExtendedRat → Bool
  | .negInf, .negInf => false
  | .negInf, _ => true
  | .finite _, .negInf => false
  | .finite a, .finite b => decide (a < b)
  | .finite _, .posInf => true
  | .posInf, _ => false

end ExtendedRat

/-! ### Numbers -/

/-- A real number in one of its three written forms. -/
inductive Number
  | int (value : Int)
  | ratio (value : Rat)
  | float (value : Binary64)
deriving DecidableEq

namespace Number

/-- The exact value on the extended line; none for what is no number. -/
def extended? : Number → Option ExtendedRat
  | .int i => some (.finite i)
  | .ratio q => some (.finite q)
  | .float x =>
    if x.isNaN then none
    else if x.isFinite then some (.finite x.exact)
    else if x.negative then some .negInf
    else some .posInf

def isNumber (n : Number) : Bool := n.extended?.isSome

def isFinite : Number → Bool
  | .float x => x.isFinite
  | _ => true

def lt (a b : Number) : Bool :=
  match a.extended?, b.extended? with
  | some x, some y => x.lt y
  | _, _ => false

def le (a b : Number) : Bool :=
  match a.extended?, b.extended? with
  | some x, some y => !y.lt x
  | _, _ => false

/-- Equal exact values; what is no number equals nothing, itself included. -/
def eqv (a b : Number) : Bool :=
  match a.extended?, b.extended? with
  | some x, some y => x == y
  | _, _ => false

theorem isNumber_int (i : Int) : (Number.int i).isNumber = true := rfl

/-! ### Text -/

/-- Floating-point numbers show the fewest digits that read back, without exponent from `0.0001` up to below
`1e+16`. -/
def layout : Binary64.Layout :=
  { leastPoint := -3, greatestPoint := 16, exponentWidth := 2, infinity := "inf", nan := "nan" }

/-- A ratio as `numerator/denominator`, a whole one as an integer. -/
def ratioText (q : Rat) : String :=
  if q.den = 1 then Decimal.integer q.num
  else Decimal.integer q.num ++ "/" ++ Decimal.natural q.den

/-- Whether a number can be written: the integers in it must not have too many digits. -/
def isWritable : Number → Bool
  | .int i => Decimal.isWritable i
  | .ratio q => Decimal.isWritable q.num && Decimal.isWritable q.den
  | .float _ => true

/-- The text of a number that can be written. -/
def text : Number → String
  | .int i => Decimal.integer i
  | .ratio q => ratioText q
  | .float x => x.format layout

end Number

end RuleTree
