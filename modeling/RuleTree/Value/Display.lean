import RuleTree.Value.Basic
import RuleTree.Calendar.Iso
import RuleTree.Text.Quoted

/-!
# The text of a value

A value on its own is shown plainly (a date by `format_date`); inside another value it is shown so that its sort can be told:
texts are quoted, ratios and dates name what they are.
-/

namespace RuleTree.Value

/-! ### Dates inside other values -/

def commaList (parts : List String) : String := ", ".intercalate parts

def shownDate (d : CalendarDate) : String :=
  "datetime.date(" ++ commaList ([d.year, d.month, d.day].map Decimal.natural) ++ ")"

/-- A distance by whole days rounded down, seconds and microseconds, as far as they are not zero. -/
def shownDistance (micros : Int) : String :=
  let days := micros / 86400000000
  let seconds := micros % 86400000000 / 1000000
  let rest := micros % 1000000
  let part (name : String) (n : Int) : List String :=
    if n = 0 then [] else [name ++ "=" ++ Decimal.integer n]
  let parts := part "days" days ++ part "seconds" seconds ++ part "microseconds" rest
  "datetime.timedelta(" ++ (if parts.isEmpty then "0" else commaList parts) ++ ")"

def shownZone (o : Offset) : String :=
  if o.micros = 0 then "datetime.timezone.utc" else "datetime.timezone(" ++ shownDistance o.micros ++ ")"

/-- Date, hour and minute, and the finer fields as far as they are needed. -/
def shownMoment (m : Moment) : String :=
  let t := m.time
  let fine := if t.micro ≠ 0 then [t.second, t.micro] else if t.second ≠ 0 then [t.second] else []
  let numbers := [m.date.year, m.date.month, m.date.day, t.hour, t.minute] ++ fine
  let zone := match m.offset with
    | some o => ["tzinfo=" ++ shownZone o]
    | none => []
  "datetime.datetime(" ++ commaList (numbers.map Decimal.natural ++ zone) ++ ")"

/-! ### Values -/

mutual

/-- A value that can be shown, as it is shown inside another one. -/
def shown : Value → String
  | .null => "None"
  | .bool b => if b then "True" else "False"
  | .number (.ratio q) => "Fraction(" ++ Decimal.integer q.num ++ ", " ++ Decimal.natural q.den ++ ")"
  | .number n => n.text
  | .str s => Text.quoted s
  | .date d => shownDate d
  | .moment m => shownMoment m
  | .list xs => "[" ++ commaList (shownItems xs) ++ "]"
  | .tuple [x] => "(" ++ shown x ++ ",)"
  | .tuple xs => "(" ++ commaList (shownItems xs) ++ ")"
  | .map es => "\x7b" ++ commaList (shownEntries es) ++ "\x7d"
  | .foreign n => "<" ++ n ++ ">"

def shownItems : List Value → List String
  | [] => []
  | x :: xs => shown x :: shownItems xs

def shownEntries : List (Value × Value) → List String
  | [] => []
  | (k, v) :: es => (shown k ++ ": " ++ shown v) :: shownEntries es

end

/-- A value that can be shown, on its own. -/
def display : Value → String
  | .str s => s
  | .number n => n.text
  | .date d => d.iso
  | .moment m => String.ofList (m.charsWith ' ')
  | v => shown v

/-- A boundary in the words of the rule's author: dates and moments in the international notation. -/
def displayDate : Value → String
  | .moment m => m.iso
  | v => display v

theorem display_str (s : String) : display (.str s) = s := rfl

end RuleTree.Value
