/-!
# Calendar dates

Dates of the Gregorian calendar, extended to the years 1 to 9999, their day numbers, and the dates that a year's
weeks name.
-/

namespace RuleTree

/-! ### Years and months -/

/-- Leap years: every fourth, but of the centuries only every fourth. -/
def isLeapYear (year : Nat) : Bool :=
  year % 4 == 0 && (year % 100 != 0 || year % 400 == 0)

def daysInMonth (year month : Nat) : Nat :=
  match month with
  | 1 | 3 | 5 | 7 | 8 | 10 | 12 => 31
  | 4 | 6 | 9 | 11 => 30
  | 2 => if isLeapYear year then 29 else 28
  | _ => 0

def daysInYear (year : Nat) : Nat := if isLeapYear year then 366 else 365

def daysBeforeMonth (year : Nat) : Nat → Nat
  | 0 | 1 => 0
  | m + 1 => daysBeforeMonth year m + daysInMonth year m

def daysBeforeYear (year : Nat) : Nat :=
  let y := year - 1
  y * 365 + y / 4 - y / 100 + y / 400

/-! ### Dates -/

def IsDate (year month day : Nat) : Prop :=
  1 ≤ year ∧ year ≤ 9999 ∧ 1 ≤ month ∧ month ≤ 12 ∧ 1 ≤ day ∧ day ≤ daysInMonth year month

instance (year month day : Nat) : Decidable (IsDate year month day) :=
  inferInstanceAs (Decidable (_ ∧ _))

structure CalendarDate where
  year : Nat
  month : Nat
  day : Nat
  isDate : IsDate year month day
deriving DecidableEq

namespace CalendarDate

/-- The date that three numbers name, if they name one. -/
def ofNumbers? (year month day : Nat) : Option CalendarDate :=
  if h : IsDate year month day then some ⟨year, month, day, h⟩ else none

def dayNumber (d : CalendarDate) : Nat :=
  daysBeforeYear d.year + daysBeforeMonth d.year d.month + d.day

/-- The number of the first day of 1970. -/
def epochDay : Nat := 719163

theorem ofNumbers?_self (d : CalendarDate) : ofNumbers? d.year d.month d.day = some d := by
  simp [ofNumbers?, d.isDate]

theorem numbers_of_ofNumbers? {year month day : Nat} {d : CalendarDate}
    (h : ofNumbers? year month day = some d) : d.year = year ∧ d.month = month ∧ d.day = day := by
  unfold ofNumbers? at h
  split at h
  · cases h
    exact ⟨rfl, rfl, rfl⟩
  · cases h

/-! ### Weeks -/

/-- The weekday of a year's first day, 0 for Monday. -/
def firstWeekday (year : Nat) : Nat := (daysBeforeYear year + 7) % 7

/-- Whether a year has a week 53: it starts on a Thursday, or on a Wednesday with a leap day to come. -/
def isLongYear (year : Nat) : Bool :=
  firstWeekday year == 3 || (firstWeekday year == 2 && isLeapYear year)

/-- The date at a day of the year, counted from 1. -/
def ofYearDay? (year n : Nat) : Option CalendarDate :=
  (List.range' 1 12).findSome? fun month =>
    if n ≤ daysBeforeMonth year month + daysInMonth year month
    then ofNumbers? year month (n - daysBeforeMonth year month) else none

/-- The date that a year, a week of it and a day of the week (1 for Monday) name. Week 1 is the one with the year's
first Thursday, so the date may lie in the year before or after. -/
def ofWeek? (year week day : Nat) : Option CalendarDate :=
  let inRange := 1 ≤ year ∧ 1 ≤ week ∧ (week ≤ 52 ∨ (week = 53 ∧ isLongYear year)) ∧ 1 ≤ day ∧ day ≤ 7
  if inRange then
    let w := firstWeekday year
    -- the day of the year, shifted up by a week so that it is never negative
    let n := (if w ≤ 3 then 7 else 14) + (week - 1) * 7 + day - w
    if n ≤ 7 then ofYearDay? (year - 1) (daysInYear (year - 1) + n - 7)
    else if daysInYear year < n - 7 then ofYearDay? (year + 1) (n - 7 - daysInYear year)
    else ofYearDay? year (n - 7)
  else none

end CalendarDate

end RuleTree
