import RuleTree.Calendar.Date

/-!
# Moments

A date with a time of day and, if it is known, the distance of the clock from universal time. Every moment lies at a
whole number of microseconds from the start of 1970; a clock without a known distance shows universal time.
-/

namespace RuleTree

/-- A time of day, to the microsecond. -/
structure TimeOfDay where
  hour : Nat
  minute : Nat
  second : Nat
  micro : Nat
  isTime : hour < 24 ∧ minute < 60 ∧ second < 60 ∧ micro < 1000000
deriving DecidableEq

namespace TimeOfDay

def ofNumbers? (hour minute second micro : Nat) : Option TimeOfDay :=
  if h : hour < 24 ∧ minute < 60 ∧ second < 60 ∧ micro < 1000000 then
    some ⟨hour, minute, second, micro, h⟩
  else none

def midnight : TimeOfDay := ⟨0, 0, 0, 0, by decide⟩

def micros (t : TimeOfDay) : Nat := ((t.hour * 60 + t.minute) * 60 + t.second) * 1000000 + t.micro

theorem micros_lt (t : TimeOfDay) : t.micros < 86400000000 := by
  have h := t.isTime
  unfold micros
  omega

end TimeOfDay

/-- The distance of a clock from universal time, in microseconds; less than a day. -/
structure Offset where
  micros : Int
  isOffset : -86400000000 < micros ∧ micros < 86400000000
deriving DecidableEq

namespace Offset

def ofMicros? (micros : Int) : Option Offset :=
  if h : -86400000000 < micros ∧ micros < 86400000000 then some ⟨micros, h⟩ else none

def ofSeconds? (seconds : Int) : Option Offset := ofMicros? (seconds * 1000000)

def zero : Offset := ⟨0, by decide⟩

end Offset

/-- A date and a time of day on some clock. -/
structure Moment where
  date : CalendarDate
  time : TimeOfDay
  offset : Option Offset
deriving DecidableEq

namespace CalendarDate

def atMidnight (d : CalendarDate) : Moment := ⟨d, TimeOfDay.midnight, some Offset.zero⟩

/-- Milliseconds from the start of 1970 to the start of a day. -/
def stamp (d : CalendarDate) : Int := ((d.dayNumber : Int) - epochDay) * 86400000

end CalendarDate

namespace Moment

/-- The moment with a known clock: one without is read as universal time. -/
def withZone (m : Moment) : Moment := { m with offset := some (m.offset.getD Offset.zero) }

/-- Microseconds from the start of 1970. -/
def instant (m : Moment) : Int :=
  ((m.date.dayNumber : Int) - CalendarDate.epochDay) * 86400000000 + m.time.micros
    - (m.offset.getD Offset.zero).micros

/-- Whole milliseconds from the start of 1970, rounded down. -/
def stamp (m : Moment) : Int := m.instant / 1000

theorem instant_withZone (m : Moment) : m.withZone.instant = m.instant := rfl

theorem stamp_atMidnight (d : CalendarDate) : d.atMidnight.stamp = d.stamp := by
  have h : d.atMidnight.instant = ((d.dayNumber : Int) - CalendarDate.epochDay) * 86400000000 := by
    simp [instant, CalendarDate.atMidnight, TimeOfDay.midnight, TimeOfDay.micros, Offset.zero]
  rw [stamp, h, CalendarDate.stamp]
  omega

end Moment

end RuleTree
