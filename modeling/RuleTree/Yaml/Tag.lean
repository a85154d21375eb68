import RuleTree.Text.CodeUnit
import RuleTree.Yaml.Timestamp

/-!
# Tags

What the nodes of a text can be, and what a plain text is by its form alone. One that has no other form is a text.
-/

namespace RuleTree.Yaml

/-- The sort of a node. An alias to a node that it is a part of has a sort of its own. -/
inductive Tag
  | null
  | bool
  | int
  | float
  | timestamp
  | str
  | binary
  | merge
  | value
  | seq
  | map
  | set
  | pairs
  | enclosing
  | other
deriving DecidableEq

namespace Tag

/-- The names of the sorts. Ordered mappings are read like rows of pairs. -/
def names : List (String × Tag) := [
  ("null", .null), ("bool", .bool), ("int", .int), ("float", .float), ("timestamp", .timestamp), ("str", .str),
  ("binary", .binary), ("merge", .merge), ("value", .value), ("seq", .seq), ("map", .map), ("set", .set),
  ("pairs", .pairs), ("omap", .pairs)]

/-- What the names of the sorts begin with. -/
def lead : String := "tag:yaml.org,2002:"

def ofName (name : String) : Tag := ((names.find? fun n => lead ++ n.1 == name).map Prod.snd).getD .other

def isCollection (t : Tag) : Bool := t == .seq || t == .map || t == .set || t == .pairs

/-! ### The forms of plain texts -/

/-- What follows a sign, if there is one. -/
def unsigned : List Char → List Char
  | '+' :: cs => cs
  | '-' :: cs => cs
  | cs => cs

def isDigitOrLine (c : Char) : Bool := Decimal.isDigit c || c == '_'

def startsWithDigit (cs : List Char) : Bool := cs.head?.any Decimal.isDigit

/-- A place of a number in base sixty: one or two digits. -/
def isSixtieth : List Char → Bool
  | [c] => Decimal.isDigit c
  | [c, d] => '0' ≤ c && c ≤ '5' && Decimal.isDigit d
  | _ => false

/-- Some digits of a base, with low lines among them. -/
def areDigits (isDigit : Char → Bool) (cs : List Char) : Bool := !cs.isEmpty && cs.all fun c => isDigit c || c == '_'

def isIntForm (cs : List Char) : Bool :=
  match unsigned cs with
  | ['0'] => true
  | '0' :: 'b' :: ds => areDigits (fun c => c == '0' || c == '1') ds
  | '0' :: 'x' :: ds => areDigits (fun c => (Text.hexDigit? c).isSome) ds
  | '0' :: ds => areDigits (fun c => '0' ≤ c && c ≤ '7') ds
  | body =>
    match body.splitOn ':' with
    | first :: rest => startsWithDigit first && first.all isDigitOrLine && rest.all isSixtieth
    | [] => false

/-- A signed exponent, or nothing. -/
def isExponent : List Char → Bool
  | [] => true
  | e :: sign :: ds =>
    (e == 'e' || e == 'E') && (sign == '+' || sign == '-') && !ds.isEmpty && ds.all Decimal.isDigit
  | _ => false

def isFloatForm (cs : List Char) : Bool :=
  let body := unsigned cs
  let whole := body.takeWhile (· != '.')
  match body.drop whole.length with
  | [] => false
  | _ :: rest =>
    let isBare := whole.isEmpty && body == cs
    if [".inf", ".Inf", ".INF"].contains (String.ofList body) then true
    else if [".nan", ".NaN", ".NAN"].contains (String.ofList body) then isBare
    else
      match whole.splitOn ':' with
      | [first] =>
        (if first.isEmpty then isBare && startsWithDigit rest else startsWithDigit first && first.all isDigitOrLine) &&
          isExponent (rest.dropWhile isDigitOrLine)
      | first :: more =>
        startsWithDigit first && first.all isDigitOrLine && more.all isSixtieth && rest.all isDigitOrLine
      | [] => false

def boolWords : List String :=
  ["yes", "Yes", "YES", "no", "No", "NO", "true", "True", "TRUE", "false", "False", "FALSE", "on", "On", "ON",
    "off", "Off", "OFF"]

def nullWords : List String := ["", "~", "null", "Null", "NULL"]

/-- A text without one line break at its end. -/
def withoutBreak (cs : List Char) : List Char := if cs.getLast? = some '\n' then cs.dropLast else cs

/-- The sort of a plain text. The forms are told apart by their first character, and none begins with a line break. -/
def ofPlain (text : String) : Tag :=
  let cs := withoutBreak text.toList
  let word := String.ofList cs
  if text.toList.head? = some '\n' then .str
  else if boolWords.contains word then .bool
  else if isFloatForm cs then .float
  else if isIntForm cs then .int
  else if word == "<<" then .merge
  else if nullWords.contains word then .null
  else if (Timestamp.read? cs).any Timestamp.isPlain then .timestamp
  else if word == "=" then .value
  else if ["!", "&", "*"].contains word then .other
  else .str

end Tag

end RuleTree.Yaml
