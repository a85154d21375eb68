import RuleTree.Calendar.Moment
import RuleTree.Number.Decimal

/-!
# Dates and moments in the international notation

Year, month and day with dashes, a `T` before the time of day, six digits of a fraction only if there is one, and the
distance from universal time with a sign, its seconds and fraction only if there are any.
-/

namespace RuleTree

namespace Decimal

def digitChar (n : Nat) : Char := Char.ofNat (48 + n)

/-- The last digits of a natural, as many as asked for. -/
def lastDigits : Nat → Nat → List Char
  | 0, _ => []
  | width + 1, n => lastDigits width (n / 10) ++ [digitChar (n % 10)]

theorem length_lastDigits (width n : Nat) : (lastDigits width n).length = width := by
  induction width generalizing n with
  | zero => rfl
  | succ width ih => simp [lastDigits, ih]

end Decimal

open Decimal

/-! ### Dates -/

def CalendarDate.isoChars (d : CalendarDate) : List Char :=
  lastDigits 4 d.year ++ '-' :: lastDigits 2 d.month ++ '-' :: lastDigits 2 d.day

def CalendarDate.iso (d : CalendarDate) : String := String.ofList d.isoChars

/-! ### Times and distances -/

/-- A point and six digits, unless the fraction is zero. -/
def fractionChars (micro : Nat) : List Char :=
  if micro = 0 then [] else '.' :: lastDigits 6 micro

def TimeOfDay.isoChars (t : TimeOfDay) : List Char :=
  lastDigits 2 t.hour ++ ':' :: lastDigits 2 t.minute ++ ':' :: lastDigits 2 t.second ++ fractionChars t.micro

def Offset.isoChars (o : Offset) : List Char :=
  let total := o.micros.natAbs
  let micro := total % 1000000
  let second := total / 1000000 % 60
  let minute := total / 60000000 % 60
  let hour := total / 3600000000
  (if o.micros < 0 then '-' else '+') :: lastDigits 2 hour ++ ':' :: lastDigits 2 minute
    ++ (if second = 0 ∧ micro = 0 then [] else ':' :: lastDigits 2 second ++ fractionChars micro)

/-! ### Moments -/

/-- A moment with a chosen character between date and time. -/
def Moment.charsWith (separator : Char) (m : Moment) : List Char :=
  m.date.isoChars ++ separator :: m.time.isoChars
    ++ (match m.offset with
      | some o => o.isoChars
      | none => [])

def Moment.iso (m : Moment) : String := String.ofList (m.charsWith 'T')

theorem CalendarDate.length_isoChars (d : CalendarDate) : d.isoChars.length = 10 := by
  simp [isoChars, length_lastDigits]

end RuleTree
