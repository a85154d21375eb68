import Mathlib.Tactic.SplitIfs
import RuleTree.Calendar.Date

/-!
# Days one after the other

From a date the calendar goes on to the next day of the month, else to the first of the next month, else to the first of the
next year. The number of a date goes up by one with each such step, so it counts the steps between any two dates.
-/

namespace RuleTree

/-! ### Months and years -/

section Lengths

variable (year : Nat) {month : Nat}

theorem daysInMonth_pos (h : 1 ≤ month ∧ month ≤ 12) : 0 < daysInMonth year month := by
  unfold daysInMonth
  grind

theorem daysBeforeMonth_succ (h : 1 ≤ month) :
    daysBeforeMonth year (month + 1) = daysBeforeMonth year month + daysInMonth year month := by
  obtain ⟨m, rfl⟩ : ∃ m, month = m + 1 := ⟨month - 1, by omega⟩
  rfl

theorem daysBeforeMonth_le {later : Nat} (hmonth : 1 ≤ month) (h : month ≤ later) :
    daysBeforeMonth year month ≤ daysBeforeMonth year later := by
  induction h with
  | refl => exact Nat.le_refl _
  | @step later hle ih =>
    have hsucc := daysBeforeMonth_succ year (Nat.le_trans hmonth hle)
    show _ ≤ daysBeforeMonth year (later + 1)
    omega

/-- The months make up the year. -/
theorem daysBeforeMonth_end : daysBeforeMonth year 13 = daysInYear year := by
  have hfebruary : daysInMonth year 2 = if isLeapYear year then 29 else 28 := rfl
  have hsum : daysBeforeMonth year 13 = 31 + daysInMonth year 2 + 306 := by
    show 0 + 31 + daysInMonth year 2 + 31 + 30 + 31 + 30 + 31 + 31 + 30 + 31 + 30 + 31 = _
    omega
  rw [hsum, hfebruary, daysInYear]
  split <;> rfl

variable {year}

theorem isLeapYear_iff : isLeapYear year = true ↔ year % 4 = 0 ∧ (year % 100 ≠ 0 ∨ year % 400 = 0) := by
  simp [isLeapYear]

theorem succ_div (n k : Nat) : (n + 1) / k = n / k + if (n + 1) % k = 0 then 1 else 0 := by
  rw [Nat.succ_div]
  simp only [Nat.dvd_iff_mod_eq_zero]

/-- The leap days before a year are the fourths of the years before it, less their hundredths, with their four hundredths put
back: each of the three goes up behind a year that it divides. -/
theorem daysBeforeYear_succ (h : 1 ≤ year) : daysBeforeYear (year + 1) = daysBeforeYear year + daysInYear year := by
  obtain ⟨y, rfl⟩ : ∃ y, year = y + 1 := ⟨year - 1, by omega⟩
  have hhundredths : y / 100 ≤ y / 4 := Nat.div_le_div_left (by omega) (by omega)
  have hfourth : (y + 1) % 4 = 0 ∨ (y + 1) % 100 ≠ 0 := by omega
  have hhundredth : (y + 1) % 100 = 0 ∨ (y + 1) % 400 ≠ 0 := by omega
  simp only [daysBeforeYear, daysInYear, isLeapYear_iff, Nat.add_sub_cancel, succ_div]
  -- from here on only which of the three remainders vanish counts
  generalize (y + 1) % 4 = a at *
  generalize (y + 1) % 100 = b at *
  generalize (y + 1) % 400 = c at *
  generalize y / 4 = fourths at *
  generalize y / 100 = hundredths at *
  generalize y / 400 = fourHundredths at *
  split_ifs <;> omega

theorem daysBeforeYear_le {later : Nat} (hyear : 1 ≤ year) (h : year ≤ later) : daysBeforeYear year ≤ daysBeforeYear later := by
  induction h with
  | refl => exact Nat.le_refl _
  | @step later hle ih =>
    have hsucc := daysBeforeYear_succ (Nat.le_trans hyear hle)
    show _ ≤ daysBeforeYear (later + 1)
    omega

end Lengths

namespace CalendarDate

variable {d e : CalendarDate}

/-! ### The order of dates -/

theorem dayOfYear_le (d : CalendarDate) : daysBeforeMonth d.year d.month + d.day ≤ daysInYear d.year := by
  obtain ⟨-, -, hmonth, hmonth', -, hday⟩ := d.isDate
  have hsucc := daysBeforeMonth_succ d.year hmonth
  have hend : daysBeforeMonth d.year (d.month + 1) ≤ daysBeforeMonth d.year 13 :=
    daysBeforeMonth_le d.year (by omega) (by omega)
  rw [daysBeforeMonth_end] at hend
  omega

/-- The order of dates: by years, then by months, then by days. -/
def Before (d e : CalendarDate) : Prop :=
  d.year < e.year ∨ d.year = e.year ∧ (d.month < e.month ∨ d.month = e.month ∧ d.day < e.day)

theorem before_trichotomy (d e : CalendarDate) : d.Before e ∨ d = e ∨ e.Before d := by
  obtain ⟨year, month, day, hd⟩ := d
  obtain ⟨year', month', day', he⟩ := e
  simp only [Before, mk.injEq]
  omega

theorem dayNumber_lt_of_before (h : d.Before e) : d.dayNumber < e.dayNumber := by
  obtain ⟨hyear, -, hmonth, -, -, hlast⟩ := d.isDate
  obtain ⟨-, -, -, -, hday, -⟩ := e.isDate
  unfold dayNumber
  rcases h with hlt | ⟨heq, hlt | ⟨heq', hlt⟩⟩
  · have hsucc := daysBeforeYear_succ hyear
    have hle : daysBeforeYear (d.year + 1) ≤ daysBeforeYear e.year := daysBeforeYear_le (by omega) hlt
    have hend := d.dayOfYear_le
    omega
  · have hsucc := daysBeforeMonth_succ d.year hmonth
    have hle : daysBeforeMonth d.year (d.month + 1) ≤ daysBeforeMonth d.year e.month := daysBeforeMonth_le d.year (by omega) hlt
    rw [← heq]
    omega
  · rw [heq, heq']
    omega

theorem eq_of_dayNumber (h : d.dayNumber = e.dayNumber) : d = e := by
  rcases before_trichotomy d e with hbefore | heq | hbefore
  · have hlt := dayNumber_lt_of_before hbefore
    omega
  · exact heq
  · have hlt := dayNumber_lt_of_before hbefore
    omega

/-! ### The next day -/

/-- The day after a date. The calendar ends with the year 9999. -/
def next? (d : CalendarDate) : Option CalendarDate :=
  if d.day < daysInMonth d.year d.month then ofNumbers? d.year d.month (d.day + 1)
  else if d.month < 12 then ofNumbers? d.year (d.month + 1) 1
  else ofNumbers? (d.year + 1) 1 1

theorem dayNumber_next (h : d.next? = some e) : e.dayNumber = d.dayNumber + 1 := by
  obtain ⟨hyear, -, hmonth, hmonth', -, hday⟩ := d.isDate
  have hsucc := daysBeforeMonth_succ d.year hmonth
  unfold next? at h
  unfold dayNumber
  split at h
  · obtain ⟨hy, hm, hd⟩ := numbers_of_ofNumbers? h
    rw [hy, hm, hd]
    omega
  · next hlast =>
    split at h
    · obtain ⟨hy, hm, hd⟩ := numbers_of_ofNumbers? h
      rw [hy, hm, hd]
      omega
    · next hdecember =>
      obtain ⟨hy, hm, hd⟩ := numbers_of_ofNumbers? h
      have hyears := daysBeforeYear_succ hyear
      have hmonths := daysBeforeMonth_end d.year
      have hfirst : daysBeforeMonth (d.year + 1) 1 = 0 := rfl
      have hend : d.month + 1 = 13 := by omega
      rw [hend] at hsucc
      rw [hy, hm, hd, hfirst]
      omega

theorem ofNumbers?_ne_none {year month day : Nat} (h : IsDate year month day) : ofNumbers? year month day ≠ none := by
  rw [ofNumbers?, dif_pos h]
  exact Option.some_ne_none _

/-- Only the last date has no next day. -/
theorem not_before_of_next?_eq_none (h : d.next? = none) (e : CalendarDate) : ¬d.Before e := by
  obtain ⟨hyear, hyear', hmonth, hmonth', hday, hday'⟩ := d.isDate
  obtain ⟨-, heyear, -, hemonth, -, heday⟩ := e.isDate
  unfold next? at h
  split at h
  · exact absurd h (ofNumbers?_ne_none ⟨hyear, hyear', hmonth, hmonth', by omega, by omega⟩)
  · next hlast =>
    split at h
    · have hpos : 0 < daysInMonth d.year (d.month + 1) := daysInMonth_pos d.year ⟨by omega, by omega⟩
      exact absurd h (ofNumbers?_ne_none ⟨hyear, hyear', by omega, by omega, by omega, by omega⟩)
    · by_cases hend : d.year < 9999
      · exact absurd h (ofNumbers?_ne_none ⟨by omega, by omega, by omega, by omega, by omega, daysInMonth_pos _ (by omega)⟩)
      · rintro (hlt | ⟨heq, hlt | ⟨heq', hlt⟩⟩)
        · omega
        · omega
        · rw [← heq, ← heq'] at heday
          omega

/-! ### Counting days -/

/-- The date some days later, as far as the calendar goes. -/
def later? (d : CalendarDate) : Nat → Option CalendarDate
  | 0 => some d
  | n + 1 => (d.later? n).bind next?

/-- Whether some days lead from one date to another: steps to the next day, counted negatively if they lead back. -/
def IsDistance (d e : CalendarDate) (days : Int) : Prop :=
  ∃ n : Nat, (days = n ∧ d.later? n = some e) ∨ (days = -n ∧ e.later? n = some d)

theorem dayNumber_later {n : Nat} (h : d.later? n = some e) : e.dayNumber = d.dayNumber + n := by
  induction n generalizing e with
  | zero =>
    cases h
    rfl
  | succ n ih =>
    obtain ⟨x, hx, hnext⟩ := Option.bind_eq_some_iff.mp h
    have hstep := dayNumber_next hnext
    have hrun := ih hx
    omega

/-- The calendar goes on for as many days as there are to some date. -/
theorem exists_later {n : Nat} (h : d.dayNumber + n ≤ e.dayNumber) : ∃ x, d.later? n = some x := by
  induction n with
  | zero => exact ⟨d, rfl⟩
  | succ n ih =>
    obtain ⟨x, hx⟩ := ih (by omega)
    have hrun := dayNumber_later hx
    cases hnext : x.next? with
    | none =>
      have hlast := not_before_of_next?_eq_none hnext e
      rcases before_trichotomy x e with hbefore | rfl | hbefore
      · exact absurd hbefore hlast
      · omega
      · have hlt := dayNumber_lt_of_before hbefore
        omega
    | some y => exact ⟨y, by rw [later?, hx, Option.bind_some, hnext]⟩

theorem later_of_dayNumber {n : Nat} (h : e.dayNumber = d.dayNumber + n) : d.later? n = some e := by
  obtain ⟨x, hx⟩ := exists_later (Nat.le_of_eq h.symm)
  have hrun := dayNumber_later hx
  rw [hx, eq_of_dayNumber (hrun.trans h.symm)]

theorem isDistance_iff {days : Int} : d.IsDistance e days ↔ days = (e.dayNumber : Int) - d.dayNumber := by
  constructor
  · rintro ⟨n, ⟨hdays, h⟩ | ⟨hdays, h⟩⟩
    · have hrun := dayNumber_later h
      omega
    · have hrun := dayNumber_later h
      omega
  · intro hdays
    rcases Nat.le_total d.dayNumber e.dayNumber with hle | hle
    · exact ⟨e.dayNumber - d.dayNumber, .inl ⟨by omega, later_of_dayNumber (by omega)⟩⟩
    · exact ⟨d.dayNumber - e.dayNumber, .inr ⟨by omega, later_of_dayNumber (by omega)⟩⟩

end CalendarDate

end RuleTree
