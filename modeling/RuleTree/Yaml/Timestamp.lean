import RuleTree.Calendar.Reader
import RuleTree.Value.Basic
import RuleTree.Yaml.Token

/-!
# Timestamps

Dates and moments as YAML writes them: numbers between dashes, then after blanks or a letter a clock with colons, a fraction
and the distance from universal time.
-/

namespace RuleTree.Yaml

structure ClockFields where
  hour : Nat
  minute : Nat
  second : Nat
  micro : Nat
  offset : Option Int
deriving DecidableEq

/-- What a timestamp is written of. `padded` tells whether its month and its day have two digits. -/
structure Timestamp where
  year : Nat
  month : Nat
  day : Nat
  padded : Bool
  clock : Option ClockFields
deriving DecidableEq

namespace ClockFields

def time (c : ClockFields) : Except DateFault TimeOfDay :=
  match TimeOfDay.ofNumbers? c.hour c.minute c.second c.micro with
  | some t => .ok t
  | none =>
    if 24 ≤ c.hour then .error .hour
    else if 60 ≤ c.minute then .error .minute
    else .error .second

def zone (c : ClockFields) : Except DateFault (Option Offset) :=
  match c.offset with
  | none => .ok none
  | some seconds =>
    match Offset.ofSeconds? seconds with
    | some o => .ok (some o)
    | none => .error (.offset (seconds * 1000000))

end ClockFields

namespace Timestamp

/-! ### Reading -/

/-- The text behind a character, if it is next. -/
def after (c : Char) : List Char → Option (List Char)
  | [] => none
  | d :: rest => if d = c then some rest else none

def shortNumber (cs : List Char) : Option (Nat × List Char) := (readDigits 2 cs).orElse fun _ => readDigits 1 cs

/-- Two digits behind a colon. -/
def colonNumber (cs : List Char) : Option (Nat × List Char) := (after ':' cs).bind (readDigits 2)

/-- A fraction of a second in microseconds; six digits count. -/
def fraction (cs : List Char) : Nat × List Char :=
  match cs with
  | '.' :: rest =>
    let ds := rest.takeWhile Decimal.isDigit
    (Decimal.ofDigits ((ds ++ List.replicate 6 '0').take 6), rest.drop ds.length)
  | rest => (0, rest)

/-- The distance from universal time that ends the text, in seconds. -/
def zone (cs : List Char) : Option (Option Int) :=
  if cs.isEmpty then some none
  else
    match cs.dropWhile isSpaceOrTab with
    | ['Z'] => some (some 0)
    | sign :: rest =>
      if sign = '+' ∨ sign = '-' then do
        let (hours, rest) ← shortNumber rest
        let (minutes, rest) ← if rest.isEmpty then some (0, rest) else colonNumber rest
        let seconds : Int := 3600 * hours + 60 * minutes
        if rest.isEmpty then some (some (if sign = '-' then -seconds else seconds)) else none
      else none
    | [] => none

/-- A clock that ends the text. -/
def clockFields (cs : List Char) : Option ClockFields := do
  let (hour, rest) ← shortNumber cs
  let (minute, rest) ← colonNumber rest
  let (second, rest) ← colonNumber rest
  let (micro, rest) := fraction rest
  let offset ← zone rest
  return { hour, minute, second, micro, offset }

def read? (cs : List Char) : Option Timestamp := do
  let (year, rest) ← readDigits 4 cs
  let (month, rest) ← (after '-' rest).bind shortNumber
  let (day, rest) ← (after '-' rest).bind shortNumber
  match rest with
  | [] => return { year, month, day, padded := cs.length == 10, clock := none }
  | c :: tail =>
    let clock ←
      if c = 'T' ∨ c = 't' then clockFields tail
      else if isSpaceOrTab c then clockFields (tail.dropWhile isSpaceOrTab)
      else none
    return { year, month, day, padded := cs.length == 10, clock := some clock }

/-- Whether a plain text of this form is a timestamp: a date alone has to be written with all its zeros. -/
def isPlain (t : Timestamp) : Bool := t.padded || t.clock.isSome

/-! ### The date -/

def date (t : Timestamp) : Except DateFault CalendarDate :=
  match CalendarDate.ofNumbers? t.year t.month t.day with
  | some d => .ok d
  | none =>
    if t.year = 0 then .error (.year t.year)
    else if t.month = 0 ∨ 12 < t.month then .error .month
    else .error .day

/-- The date or moment that is written, if there is one. The distance from universal time is looked at first. -/
def value (t : Timestamp) : Except DateFault Value :=
  match t.clock with
  | none => t.date.map .date
  | some c => do
    let offset ← c.zone
    let date ← t.date
    let time ← c.time
    return .moment ⟨date, time, offset⟩

end Timestamp

end RuleTree.Yaml
