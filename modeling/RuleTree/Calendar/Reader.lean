import RuleTree.Calendar.Moment
import RuleTree.Number.Decimal
import RuleTree.Text.Digit

/-!
# Reading dates and moments

`parse_date`. A text is read in the international notation first: a date with or without dashes, or a week of a year, then any
one character and a time of day with or without colons, a fraction, and the distance from universal time. Failing that, a year,
a month and a day without filling zeros are taken, with dashes or slashes and digits of any script. Blanks around the text do
not count, and a clock without a known distance shows universal time.
-/

namespace RuleTree

open Decimal

/-! ### Pieces -/

/-- Exactly `width` digits at the front: the natural they write, and what follows. -/
def readDigits (width : Nat) (cs : List Char) : Option (Nat × List Char) :=
  if (cs.take width).length = width ∧ (cs.take width).all isDigit = true then
    some (ofDigits (cs.take width), cs.drop width)
  else none

/-- A text ends where its characters do, or at a null character. -/
def isTextEnd : Option Char → Bool
  | none => true
  | some c => c == '\x00'

/-! ### Dates -/

/-- Where the date ends and the one separating character stands. A row of digits behind a week number is cut so that the
digits left over form pairs. -/
def dateLength (cs : List Char) : Nat :=
  if cs.length = 7 then 7
  else if cs[4]? = some '-' then
    if cs[5]? = some 'W' then
      if cs[8]? = some '-' then (if cs[10]?.any isDigit then 8 else 10) else 8
    else 10
  else if cs[4]? = some 'W' then
    let stop := 7 + ((cs.drop 7).takeWhile isDigit).length
    if stop < 9 then stop else if stop % 2 = 0 then 7 else 8
  else 8

/-- Week and, if it is written, day of the week. -/
def readWeekDate (year : Nat) (dashed : Bool) (cs : List Char) : Option CalendarDate := do
  let (week, rest) ← readDigits 2 cs
  match rest with
  | [] => CalendarDate.ofWeek? year week 1
  | '-' :: rest =>
    if dashed then
      let (day, _) ← readDigits 1 rest
      CalendarDate.ofWeek? year week day
    else none
  | rest =>
    if dashed then none
    else
      let (day, _) ← readDigits 1 rest
      CalendarDate.ofWeek? year week day

/-- A text that is a date as a whole. -/
def readIsoDate (cs : List Char) : Option CalendarDate := do
  let (year, rest) ← readDigits 4 cs
  let dashed := rest.head? == some '-'
  let rest := if dashed then rest.drop 1 else rest
  match rest with
  | 'W' :: rest => readWeekDate year dashed rest
  | rest =>
    let (month, rest) ← readDigits 2 rest
    let rest ← if dashed then (if rest.head? = some '-' then some (rest.drop 1) else none) else some rest
    let (day, rest) ← readDigits 2 rest
    if rest.isEmpty then CalendarDate.ofNumbers? year month day else none

/-! ### Times -/

/-- What a clock shows: hour, minute and second as far as they are written, a fraction in microseconds, and whether the
text ends behind them. -/
structure ClockReading where
  fields : List Nat
  micro : Nat
  clean : Bool

def ClockReading.push (n : Nat) (r : ClockReading) : ClockReading := { r with fields := n :: r.fields }

def ClockReading.hour (r : ClockReading) : Nat := r.fields[0]?.getD 0

def ClockReading.minute (r : ClockReading) : Nat := r.fields[1]?.getD 0

def ClockReading.second (r : ClockReading) : Nat := r.fields[2]?.getD 0

/-- A fraction of a second: six digits count, further ones are passed over. -/
def readFraction (next : Option Char) (cs : List Char) : Option ClockReading := do
  let width := min cs.length 6
  let (n, rest) ← readDigits width cs
  let left := rest.dropWhile isDigit
  some { fields := [], micro := n * Nat.pow 10 (6 - width), clean := isTextEnd (left.head?.or next) }

/-- Up to `more` fields of two digits, all or none of them separated by colons, then a fraction. The last character of the
text is never a separator; `next` is the character behind the text. -/
def readClock (next : Option Char) (separated : Option Bool) : Nat → List Char → Option ClockReading
  | 0, cs => readFraction next cs
  | more + 1, cs => do
    let (n, rest) ← readDigits 2 cs
    match rest with
    | [] => some { fields := [n], micro := 0, clean := isTextEnd next }
    | [c] => some { fields := [n], micro := 0, clean := isTextEnd (some c) }
    | c :: tail =>
      let colons := separated.getD (c == ':')
      if colons && c == ':' then (readClock next (some colons) more tail).map (·.push n)
      else if c == '.' || c == ',' then (readFraction next tail).map (·.push n)
      else if colons then none
      else (readClock next (some colons) more rest).map (·.push n)

/-- The distance from universal time: `Z`, or a sign and a clock. Without whole seconds it is zero. -/
def readOffset : List Char → Option Offset
  | 'Z' :: rest => if isTextEnd rest.head? then some Offset.zero else none
  | sign :: rest => do
    let r ← readClock none none 3 rest
    let seconds := (r.hour * 60 + r.minute) * 60 + r.second
    let micros : Int := (seconds * 1000000 + r.micro : Nat)
    if !r.clean then none
    else if seconds = 0 then some Offset.zero
    else Offset.ofMicros? (if sign = '-' then -micros else micros)
  | [] => none

def isZoneMark (c : Char) : Bool := c == '+' || c == '-' || c == 'Z'

/-- A time of day and the distance of its clock. In front of a distance one stray character is passed over. -/
def readIsoTime (cs : List Char) : Option (TimeOfDay × Option Offset) := do
  let clock := cs.takeWhile (!isZoneMark ·)
  let zone := cs.dropWhile (!isZoneMark ·)
  let r ← readClock zone.head? none 3 clock
  let offset ← if zone.isEmpty then (if r.clean then some none else none) else (readOffset zone).map some
  let time ← TimeOfDay.ofNumbers? r.hour r.minute r.second r.micro
  some (time, offset)

/-! ### Moments -/

def readIsoMoment (cs : List Char) : Option Moment := do
  let n := dateLength cs
  let date ← readIsoDate (cs.take n)
  match cs.drop n with
  | [] => some ⟨date, TimeOfDay.midnight, none⟩
  | _ :: rest =>
    let (time, offset) ← readIsoTime rest
    some ⟨date, time, offset⟩

def isLooseSeparator (c : Char) : Bool := c == '-' || c == '/'

/-- Year, month and day in digits of any script, of four, and of one or two places. -/
def readLooseDate (cs : List Char) : Option CalendarDate := do
  let year := cs.takeWhile Text.isDecimal
  let rest := cs.dropWhile Text.isDecimal
  let month := (rest.drop 1).takeWhile Text.isDecimal
  let rest' := (rest.drop 1).dropWhile Text.isDecimal
  let day := rest'.drop 1
  let shaped := year.length == 4 && rest.head?.any isLooseSeparator && rest'.head?.any isLooseSeparator
    && 1 ≤ month.length && month.length ≤ 2 && 1 ≤ day.length && day.length ≤ 2
  if shaped then
    CalendarDate.ofNumbers? (← Text.ofDecimalDigits? year) (← Text.ofDecimalDigits? month)
      (← Text.ofDecimalDigits? day)
  else none

/-- The moment that a text names, if it names one. -/
def Moment.read? (text : String) : Option Moment :=
  let cs := Text.strip text.toList
  match readIsoMoment cs with
  | some m => some m.withZone
  | none => (readLooseDate cs).map CalendarDate.atMidnight

end RuleTree
