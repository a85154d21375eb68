/-!
# Decimal notation

Decimal digits as characters, the natural they write, and the notation of a natural or an integer in them.
-/

namespace RuleTree.Decimal

/-! ### Digits -/

def isDigit (c : Char) : Bool := '0' ≤ c && c ≤ '9'

/-- The number that a digit writes; other characters are not asked for. -/
def digitValue (c : Char) : Nat := c.toNat - 48

def ofDigits (cs : List Char) : Nat :=
  cs.foldl (fun n c => 10 * n + digitValue c) 0

/-- The digits at the front and what follows them. -/
def splitDigits (cs : List Char) : List Char × List Char :=
  (cs.takeWhile isDigit, cs.dropWhile isDigit)

theorem splitDigits_append (cs : List Char) : (splitDigits cs).1 ++ (splitDigits cs).2 = cs :=
  List.takeWhile_append_dropWhile

/-! ### Written numbers -/

def digits (n : Nat) : List Char := Nat.toDigits 10 n

/-- A natural in decimal, filled with zeros on the left up to a width. -/
def padded (width n : Nat) : String := String.ofList ((digits n).leftpad width '0')

def natural (n : Nat) : String := String.ofList (digits n)

/-- An integer in decimal; only a negative one has a sign. -/
def integer (i : Int) : String := if i < 0 then "-" ++ natural i.natAbs else natural i.natAbs

/-- The most digits of an integer that is read from or written to a text in decimal. -/
def maxDigits : Nat := 4300

/-- Whether an integer has few enough digits to be written. -/
def isWritable (i : Int) : Bool := (digits i.natAbs).length ≤ maxDigits

/-- The report of an integer with more digits than are written. -/
def unwritable : String :=
  "Exceeds the limit (" ++ natural maxDigits ++
    " digits) for integer string conversion; use sys.set_int_max_str_digits() to increase the limit"

/-- The report of a text with more digits than are read. -/
def tooLong (digits : Nat) : String :=
  "Exceeds the limit (" ++ natural maxDigits ++ " digits) for integer string conversion: value has " ++
    natural digits ++ " digits; use sys.set_int_max_str_digits() to increase the limit"

end RuleTree.Decimal
