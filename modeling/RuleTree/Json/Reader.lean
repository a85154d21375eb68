import RuleTree.Text.CodeUnit
import RuleTree.Value.Basic

/-!
# Reading JSON

The value that a JSON text writes, or the first fault in it and its place. Beside the standard's numbers, the names of what
lies beyond all numbers are read.
-/

namespace RuleTree.Json

open Text (unit? isHighHalf isLowHalf joinHalves ofCode)

inductive Reason
  | value
  | propertyName
  | colon
  | comma
  | extraData
  | unterminatedString
  | controlCharacter
  | escape
  | unicodeEscape
  | byteOrderMark
deriving DecidableEq

def Reason.message : Reason → String
  | .value => "Expecting value"
  | .propertyName => "Expecting property name enclosed in double quotes"
  | .colon => "Expecting ':' delimiter"
  | .comma => "Expecting ',' delimiter"
  | .extraData => "Extra data"
  | .unterminatedString => "Unterminated string starting at"
  | .controlCharacter => "Invalid control character at"
  | .escape => "Invalid \\escape"
  | .unicodeEscape => "Invalid \\uXXXX escape"
  | .byteOrderMark => "Unexpected UTF-8 BOM (decode using utf-8-sig)"

/-- Why a text is not read: it is malformed at a place, or writes an integer of too many digits. -/
inductive ReadFault
  | malformed (reason : Reason) (position : Nat)
  | tooManyDigits (digits : Nat)
deriving DecidableEq

/-- The report of a malformed text: what, and where by line, column and number of the character. -/
def Reason.report (reason : Reason) (text : List Char) (position : Nat) : String :=
  let before := text.take position
  let line := before.count '\n' + 1
  let column := (before.reverse.takeWhile (· != '\n')).length + 1
  reason.message ++ ": line " ++ Decimal.natural line ++ " column " ++ Decimal.natural column ++
    " (char " ++ Decimal.natural position ++ ")"

/-- What is left of a text, and how much lies behind. -/
structure Cursor where
  rest : List Char
  position : Nat

namespace Cursor

def skip (c : Cursor) (n : Nat) : Cursor := ⟨c.rest.drop n, c.position + n⟩

def isBlank (c : Char) : Bool := c == ' ' || c == '\t' || c == '\n' || c == '\r'

def skipBlanks (c : Cursor) : Cursor :=
  let blanks := c.rest.takeWhile isBlank
  c.skip blanks.length

end Cursor

abbrev Reads (α : Type) := Except ReadFault (α × Cursor)

def fail {α : Type} (reason : Reason) (c : Cursor) : Except ReadFault α := .error (.malformed reason c.position)

/-! ### Texts -/

def escaped? : Char → Option Char
  | '"' => some '"'
  | '\\' => some '\\'
  | '/' => some '/'
  | 'b' => some '\x08'
  | 'f' => some '\x0c'
  | 'n' => some '\n'
  | 'r' => some '\r'
  | 't' => some '\t'
  | _ => none

def consChar (c : Char) (r : Reads (List Char)) : Reads (List Char) := r.map fun (cs, next) => (c :: cs, next)

/-- The characters of a text up to its closing quote; the text began at a place. A code in digits must not be the last thing
before the end. -/
def readChars (start : Nat) (position : Nat) : List Char → Reads (List Char)
  | [] => .error (.malformed .unterminatedString start)
  | '"' :: rest => .ok ([], ⟨rest, position + 1⟩)
  | ['\\'] => .error (.malformed .unterminatedString start)
  | '\\' :: 'u' :: a :: b :: c :: d :: '\\' :: 'u' :: e :: f :: g :: h :: rest =>
    match unit? a b c d with
    | none => .error (.malformed .unicodeEscape (position + 1))
    | some n =>
      if isHighHalf n && !rest.isEmpty then
        match unit? e f g h with
        | none => .error (.malformed .unicodeEscape (position + 7))
        | some m =>
          if isLowHalf m then consChar (ofCode (joinHalves n m)) (readChars start (position + 12) rest)
          else consChar (ofCode n) (readChars start (position + 6) ('\\' :: 'u' :: e :: f :: g :: h :: rest))
      else consChar (ofCode n) (readChars start (position + 6) ('\\' :: 'u' :: e :: f :: g :: h :: rest))
  | '\\' :: 'u' :: a :: b :: c :: d :: e :: rest =>
    match unit? a b c d with
    | none => .error (.malformed .unicodeEscape (position + 1))
    | some n => consChar (ofCode n) (readChars start (position + 6) (e :: rest))
  | '\\' :: 'u' :: _ => .error (.malformed .unicodeEscape (position + 1))
  | '\\' :: c :: rest =>
    match escaped? c with
    | some d => consChar d (readChars start (position + 2) rest)
    | none => .error (.malformed .escape position)
  | c :: rest =>
    if c.toNat < 32 then .error (.malformed .controlCharacter position)
    else consChar c (readChars start (position + 1) rest)
termination_by cs => cs.length

/-- A text after its opening quote. -/
def readString (c : Cursor) : Reads String :=
  (readChars (c.position - 1) c.position c.rest).map fun (cs, next) => (String.ofList cs, next)

/-! ### Numbers -/

/-- The parts of a number at the front of a text: digits, digits behind a point, and the digits of an exponent with its
sign. -/
structure Numeral where
  negative : Bool
  whole : List Char
  fraction : Option (List Char)
  exponent : Option (Bool × List Char)

def Numeral.length (n : Numeral) (exponentSigned : Bool) : Nat :=
  (if n.negative then 1 else 0) + n.whole.length + (n.fraction.map (·.length + 1)).getD 0 +
    (n.exponent.map fun e => e.2.length + 1 + if exponentSigned then 1 else 0).getD 0

/-- The whole part: no zero stands before other digits. -/
def wholeDigits (cs : List Char) : List Char :=
  match cs with
  | '0' :: _ => ['0']
  | _ => cs.takeWhile Decimal.isDigit

/-- The number at the front of a text, and how many characters it takes. -/
def numeral? (cs : List Char) : Option (Numeral × Nat) :=
  let (negative, body) := match cs with
    | '-' :: r => (true, r)
    | r => (false, r)
  let whole := wholeDigits body
  if whole.isEmpty then none
  else
    let afterWhole := body.drop whole.length
    let (fraction, afterFraction) := match afterWhole with
      | '.' :: r =>
        let ds := r.takeWhile Decimal.isDigit
        if ds.isEmpty then (none, afterWhole) else (some ds, r.drop ds.length)
      | r => (none, r)
    let (exponent, signed) := match afterFraction with
      | e :: r =>
        if e = 'e' ∨ e = 'E' then
          let (sign, ds) := match r with
            | '-' :: r => (some true, r.takeWhile Decimal.isDigit)
            | '+' :: r => (some false, r.takeWhile Decimal.isDigit)
            | r => (none, r.takeWhile Decimal.isDigit)
          if ds.isEmpty then (none, false) else (some (sign.getD false, ds), sign.isSome)
        else (none, false)
      | [] => (none, false)
    let n : Numeral := { negative, whole, fraction, exponent }
    some (n, n.length signed)

/-- A number without point and exponent is an integer; others are rounded to the nearest floating-point number. -/
def Numeral.number (n : Numeral) : Except ReadFault Number :=
  match n.fraction, n.exponent with
  | none, none =>
    if Decimal.maxDigits < n.whole.length then .error (.tooManyDigits n.whole.length)
    else
      let i : Int := Decimal.ofDigits n.whole
      .ok (.int (if n.negative then -i else i))
  | fraction, exponent =>
    let ds := fraction.getD []
    let e : Int := match exponent with
      | some (true, es) => -(Decimal.ofDigits es : Int)
      | some (false, es) => Decimal.ofDigits es
      | none => 0
    .ok (.float (Binary64.ofDecimal n.negative (Decimal.ofDigits (n.whole ++ ds)) (e - ds.length)))

/-! ### Values -/

def words : List (String × Value) := [
  ("null", .null), ("true", .bool true), ("false", .bool false), ("NaN", .number (.float Binary64.nan)),
  ("Infinity", .number (.float (Binary64.infinity false))), ("-Infinity", .number (.float (Binary64.infinity true)))]

def readPlain (c : Cursor) : Reads Value :=
  match words.find? fun w => w.1.toList.isPrefixOf c.rest with
  | some (word, v) => .ok (v, c.skip word.length)
  | none =>
    match numeral? c.rest with
    | none => fail .value c
    | some (n, length) => n.number.map fun x => (.number x, c.skip length)

mutual

def readValue : Nat → Cursor → Except ReadFault (Value × Cursor)
  | 0, c => fail .value c
  | fuel + 1, c =>
    match c.rest with
    | '"' :: _ => (readString (c.skip 1)).map fun (s, next) => (.str s, next)
    | '[' :: _ =>
      let c := (c.skip 1).skipBlanks
      if c.rest.head? = some ']' then .ok (.list [], c.skip 1)
      else (readItems fuel c).map fun (vs, next) => (.list vs, next)
    | '\x7b' :: _ =>
      let c := (c.skip 1).skipBlanks
      if c.rest.head? = some '\x7d' then .ok (.map [], c.skip 1)
      else (readEntries fuel c).map fun (es, next) => (Value.ofPairs es, next)
    | _ => readPlain c

def readItems : Nat → Cursor → Except ReadFault (List Value × Cursor)
  | 0, c => fail .value c
  | fuel + 1, c => do
    let (v, next) ← readValue fuel c
    let next := next.skipBlanks
    match next.rest.head? with
    | some ']' => return ([v], next.skip 1)
    | some ',' =>
      let (vs, last) ← readItems fuel (next.skip 1).skipBlanks
      return (v :: vs, last)
    | _ => fail .comma next

def readEntries : Nat → Cursor → Except ReadFault (List (Value × Value) × Cursor)
  | 0, c => fail .value c
  | fuel + 1, c => do
    if c.rest.head? ≠ some '"' then fail .propertyName c
    else
      let (name, next) ← readString (c.skip 1)
      let next := next.skipBlanks
      if next.rest.head? ≠ some ':' then fail .colon next
      else
        let (v, next) ← readValue fuel (next.skip 1).skipBlanks
        let next := next.skipBlanks
        match next.rest.head? with
        | some '\x7d' => return ([(.str name, v)], next.skip 1)
        | some ',' =>
          let (es, last) ← readEntries fuel (next.skip 1).skipBlanks
          return ((.str name, v) :: es, last)
        | _ => fail .comma next

end

def read (text : List Char) : Except ReadFault Value :=
  if text.head? = some '\ufeff' then .error (.malformed .byteOrderMark 0)
  else
    match readValue (2 * text.length + 1) (Cursor.skipBlanks ⟨text, 0⟩) with
    | .error f => .error f
    | .ok (v, next) =>
      let next := next.skipBlanks
      if next.rest.isEmpty then .ok v else fail .extraData next

end RuleTree.Json
