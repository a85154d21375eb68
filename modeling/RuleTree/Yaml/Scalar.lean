import RuleTree.Text.Case
import RuleTree.Text.Quoted
import RuleTree.Value.Display
import RuleTree.Yaml.Tag

/-!
# Scalars

The values of texts by their sort, and the faults of texts that have none: dates that do not exist, integers of too many
digits, and what is not written in the form of its sort.
-/

namespace RuleTree.Yaml

/-- Whether a minus stands in front, and the text without its sign. -/
def signed : List Char → Bool × List Char
  | '-' :: cs => (true, cs)
  | '+' :: cs => (false, cs)
  | cs => (false, cs)

/-! ### Integers -/

/-- The number of a digit in a base: decimal digits of any script, then letters. -/
def digitIn? (base : Nat) (c : Char) : Option Nat :=
  let letter := if 'a' ≤ c.toLower ∧ c.toLower ≤ 'z' then some (c.toLower.toNat - 87) else none
  ((Text.decimalDigit? c).or letter).filter (· < base)

/-- The letter that may tell a base behind a zero. -/
def baseLetter? : Nat → Option Char
  | 2 => some 'b'
  | 8 => some 'o'
  | 16 => some 'x'
  | _ => none

/-- The integer that a text writes in a base, with blanks around it and a sign. -/
def integerIn (base : Nat) (cs : List Char) : Except Fault Int :=
  let (negative, body) := signed (Text.strip cs)
  let digits := match body with
    | '0' :: c :: rest => if baseLetter? base = some c.toLower then rest else body
    | _ => body
  match digits.foldlM (fun n c => (digitIn? base c).map (base * n + ·)) 0 with
  | none => .error (.notInteger base (String.ofList cs))
  | some n =>
    if digits.isEmpty then .error (.notInteger base (String.ofList cs))
    else if base = 10 ∧ Decimal.maxDigits < digits.length then .error (.tooManyDigits digits.length)
    else .ok (if negative then -n else n)

/-- An integer by its form: with the sign of a base, in octal behind a zero, with places of base sixty, or in decimal. -/
def readInteger (text : String) : Except Fault Int :=
  let (negative, body) := signed (text.toList.filter (· != '_'))
  let size : Except Fault Int := match body with
    | [] => .error .noDigits
    | ['0'] => .ok 0
    | '0' :: 'b' :: ds => integerIn 2 ds
    | '0' :: 'x' :: ds => integerIn 16 ds
    | '0' :: _ => integerIn 8 body
    | _ =>
      if body.contains ':' then
        ((body.splitOn ':').mapM (integerIn 10)).map fun places => places.foldl (fun n d => 60 * n + d) 0
      else integerIn 10 body
  size.map fun n => if negative then -n else n

/-! ### Floating-point numbers -/

def plainDigit (c : Char) : Char := ((Text.decimalDigit? c).map Decimal.digitChar).getD c

/-- The exponent at the end of a number: its sign and its digits. -/
def exponent? : List Char → Option Int
  | [] => some 0
  | e :: cs =>
    let (negative, ds) := signed cs
    if e = 'e' ∧ !ds.isEmpty ∧ ds.all Decimal.isDigit then
      some (if negative then -(Decimal.ofDigits ds : Int) else Decimal.ofDigits ds)
    else none

/-- The number that a text in small letters writes in decimal, or by a word. -/
def floatOf (cs : List Char) : Except Fault Binary64 :=
  let (negative, body) := signed ((Text.strip cs).map plainDigit)
  let word := String.ofList body
  if word == "inf" || word == "infinity" then .ok (Binary64.infinity negative)
  else if word == "nan" then .ok Binary64.nan
  else
    let whole := body.takeWhile Decimal.isDigit
    let (part, rest) := match body.drop whole.length with
      | '.' :: rest => Decimal.splitDigits rest
      | rest => ([], rest)
    match exponent? rest with
    | some e =>
      if whole.isEmpty ∧ part.isEmpty then .error (.notFloat (String.ofList cs))
      else .ok (Binary64.ofDecimal negative (Decimal.ofDigits (whole ++ part)) (e - part.length))
    | none => .error (.notFloat (String.ofList cs))

/-- How many places a number in base sixty may have: the power of sixty of each is a finite number. -/
def maxPlaces : Nat := 174

/-- The number with some places in base sixty. -/
def ofSixtieths (places : List Binary64) : Except Fault Binary64 :=
  if maxPlaces < places.length then .error .tooManyPlaces
  else .ok (places.reverse.zipIdx.foldl (fun sum d => sum.add (d.1.scale (Nat.pow 60 d.2))) (Binary64.zero false))

def readFloat (text : String) : Except Fault Binary64 :=
  match (Text.lower text).toList.filter (· != '_') with
  | [] => .error .noDigits
  | cs =>
    let (negative, body) := signed cs
    let size : Except Fault Binary64 :=
      if body = ".inf".toList then .ok (Binary64.infinity false)
      else if body = ".nan".toList then .ok Binary64.nan
      else if body.contains ':' then (body.splitOn ':').mapM floatOf >>= ofSixtieths
      else floatOf body
    size.map fun x => if negative then x.negate else x

/-! ### Other values -/

def readBool (text : String) : Except Fault Bool :=
  let word := Text.lower text
  if ["yes", "true", "on"].contains word then .ok true
  else if ["no", "false", "off"].contains word then .ok false
  else .error (.notTruthValue word)

def readTimestamp (text : String) : Except Fault Value :=
  match Timestamp.read? (Tag.withoutBreak text.toList) with
  | none => .error .notTimestamp
  | some t => t.value.mapError .date

def isBase64 (c : Char) : Bool :=
  ('A' ≤ c && c ≤ 'Z') || ('a' ≤ c && c ≤ 'z') || Decimal.isDigit c || c == '+' || c == '/'

/-- Whether a text of bytes is complete: after some groups of four signs nothing is left. Fillers end it behind the second
sign of a group; all else is passed over. -/
def isCompleteBase64 (inGroup fillers : Nat) : List Char → Bool
  | [] => inGroup == 0
  | c :: cs =>
    if c == '=' then
      if 2 ≤ inGroup then 4 ≤ inGroup + fillers + 1 || isCompleteBase64 inGroup (fillers + 1) cs
      else isCompleteBase64 inGroup fillers cs
    else if isBase64 c then isCompleteBase64 ((inGroup + 1) % 4) 0 cs
    else isCompleteBase64 inGroup fillers cs

/-- The value of a text of some sort. -/
def Tag.read (t : Tag) (text : String) : Except Fault Value :=
  match t with
  | .null => .ok .null
  | .bool => (readBool text).map .bool
  | .int => (readInteger text).map fun i => .number (.int i)
  | .float => (readFloat text).map fun x => .number (.float x)
  | .timestamp => readTimestamp text
  | .str => .ok (.str text)
  | .binary =>
    if text.toList.all (·.toNat < 128) && isCompleteBase64 0 0 text.toList then .ok (.foreign "bytes")
    else .error .malformed
  | .enclosing => .error .recursive
  | _ => .error .malformed

/-! ### Reports -/

def DateFault.message : DateFault → String
  | .year n => "year " ++ Decimal.natural n ++ " is out of range"
  | .month => "month must be in 1..12"
  | .day => "day is out of range for month"
  | .hour => "hour must be in 0..23"
  | .minute => "minute must be in 0..59"
  | .second => "second must be in 0..59"
  | .offset micros =>
    "offset must be a timedelta strictly between -timedelta(hours=24) and timedelta(hours=24), not " ++
      Value.shownDistance micros ++ "."

/-- The report of a fault. Malformed texts have one without details. -/
def Fault.message : Fault → String
  | .malformed => "<yaml>"
  | .recursive => "maximum recursion depth exceeded"
  | .date f => f.message
  | .tooManyDigits digits => Decimal.tooLong digits
  | .notInteger base text =>
    "invalid literal for int() with base " ++ Decimal.natural base ++ ": " ++ Text.quoted text
  | .notFloat text => "could not convert string to float: " ++ Text.quoted text
  | .notTruthValue text => Text.quoted text
  | .noDigits => "string index out of range"
  | .tooManyPlaces => "int too large to convert to float"
  | .notTimestamp => "'NoneType' object has no attribute 'groupdict'"
  | .notText => "expected string or bytes-like object, got 'list'"
  | .codeTooLarge => "chr() arg not in range(0x110000)"
  | .codeOverflow => "Python int too large to convert to C int"

end RuleTree.Yaml
