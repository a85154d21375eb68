import Mathlib.Data.Rat.Floor
import Mathlib.Tactic.Ring
import RuleTree.Proofs.Calendar.Days
import RuleTree.Value.Basic

/-!
# Milliseconds from the start of 1970

A moment lies at an exact distance from the start of 1970: the days that the calendar counts, what the clock shows, and the
clock's own distance from universal time taken off. Its stamp is this distance in milliseconds, rounded down. So stamps keep
the order of moments, and for clocks of one kind the order of what they show.
-/

namespace RuleTree

def CalendarDate.epoch : CalendarDate := ⟨1970, 1, 1, by decide⟩

theorem CalendarDate.dayNumber_epoch : epoch.dayNumber = epochDay := by decide

theorem CalendarDate.stamp_next {d e : CalendarDate} (h : d.next? = some e) : e.stamp = d.stamp + 86400000 := by
  have hstep := dayNumber_next h
  unfold stamp
  omega

namespace Moment

variable {m n : Moment} {x y : ℚ}

/-! ### Exact distances -/

/-- What a moment is behind the start of 1970, in milliseconds, if its day is so many days behind. -/
def millis (m : Moment) (days : Int) : ℚ :=
  days * 86400000 + m.time.hour * 3600000 + m.time.minute * 60000 + m.time.second * 1000 + m.time.micro / 1000
    - (m.offset.getD Offset.zero).micros / 1000

/-- Whether a moment is exactly so many milliseconds behind the start of 1970, by the days that the calendar counts. -/
def IsBehindEpoch (m : Moment) (x : ℚ) : Prop :=
  ∃ days : Int, CalendarDate.epoch.IsDistance m.date days ∧ x = m.millis days

theorem millis_eq (m : Moment) : m.millis (m.date.dayNumber - CalendarDate.epoch.dayNumber) = (m.instant : ℚ) / 1000 := by
  rw [millis, instant, TimeOfDay.micros, CalendarDate.dayNumber_epoch]
  push_cast
  ring

theorem isBehindEpoch_iff : m.IsBehindEpoch x ↔ x = (m.instant : ℚ) / 1000 := by
  constructor
  · rintro ⟨days, hdays, hx⟩
    rw [hx, CalendarDate.isDistance_iff.mp hdays, millis_eq]
  · intro hx
    exact ⟨_, CalendarDate.isDistance_iff.mpr rfl, hx.trans (millis_eq m).symm⟩

theorem stamp_eq_floor (h : m.IsBehindEpoch x) : m.stamp = ⌊x⌋ := by
  have hfloor : ⌊(m.instant : ℚ) / ((1000 : Nat) : ℚ)⌋ = m.instant / ((1000 : Nat) : Int) :=
    Rat.floor_intCast_div_natCast m.instant 1000
  rw [isBehindEpoch_iff.mp h, stamp]
  exact hfloor.symm

theorem stamp_le_of_le (hm : m.IsBehindEpoch x) (hn : n.IsBehindEpoch y) (h : x ≤ y) : m.stamp ≤ n.stamp := by
  rw [stamp_eq_floor hm, stamp_eq_floor hn]
  exact Int.floor_le_floor h

/-! ### The order of what a clock shows -/

/-- What calendar and clock show, the year first. -/
def fields (m : Moment) : List Nat :=
  [m.date.year, m.date.month, m.date.day, m.time.hour, m.time.minute, m.time.second, m.time.micro]

/-- A day is longer than any time of it. -/
theorem instant_le_of_before (hoffset : m.offset.getD Offset.zero = n.offset.getD Offset.zero)
    (h : m.date.Before n.date) : m.instant ≤ n.instant := by
  have hday := CalendarDate.dayNumber_lt_of_before h
  have hmicros := m.time.micros_lt
  unfold instant
  rw [hoffset]
  omega

theorem instant_le_of_time_le (hoffset : m.offset.getD Offset.zero = n.offset.getD Offset.zero)
    (hdate : m.date.dayNumber = n.date.dayNumber) (h : m.time.micros ≤ n.time.micros) : m.instant ≤ n.instant := by
  unfold instant
  rw [hoffset, hdate]
  omega

theorem instant_le_of_lex (hoffset : m.offset.getD Offset.zero = n.offset.getD Offset.zero)
    (h : List.Lex (· < ·) m.fields n.fields) : m.instant ≤ n.instant := by
  have hm := m.time.isTime
  have hn := n.time.isTime
  simp only [fields, List.cons_lex_cons_iff] at h
  rcases h with hlt | ⟨hyear, hlt | ⟨hmonth, hlt | ⟨hday, htime⟩⟩⟩
  · exact instant_le_of_before hoffset (.inl hlt)
  · exact instant_le_of_before hoffset (.inr ⟨hyear, .inl hlt⟩)
  · exact instant_le_of_before hoffset (.inr ⟨hyear, .inr ⟨hmonth, hlt⟩⟩)
  · have hdate : m.date.dayNumber = n.date.dayNumber := by
      unfold CalendarDate.dayNumber
      rw [hyear, hmonth, hday]
    refine instant_le_of_time_le hoffset hdate ?_
    unfold TimeOfDay.micros
    rcases htime with hlt | ⟨hhour, hlt | ⟨hminute, hlt | ⟨hsecond, hlt | ⟨-, hnil⟩⟩⟩⟩
    · omega
    · omega
    · omega
    · omega
    · cases hnil

theorem stamp_le_of_lex (hoffset : m.offset.getD Offset.zero = n.offset.getD Offset.zero)
    (h : List.Lex (· < ·) m.fields n.fields) : m.stamp ≤ n.stamp := by
  have hinstant := instant_le_of_lex hoffset h
  unfold stamp
  omega

theorem stamp_eq_of_fields (hoffset : m.offset.getD Offset.zero = n.offset.getD Offset.zero) (h : m.fields = n.fields) :
    m.stamp = n.stamp := by
  simp only [fields, List.cons.injEq] at h
  obtain ⟨hyear, hmonth, hday, hhour, hminute, hsecond, hmicro, -⟩ := h
  unfold stamp instant CalendarDate.dayNumber TimeOfDay.micros
  rw [hoffset, hyear, hmonth, hday, hhour, hminute, hsecond, hmicro]

end Moment

theorem Value.stamp?_moment (m : Moment) : (Value.moment m).stamp? = some m.stamp := rfl

/-- Stamps count calendar time. A day has 86400000 milliseconds, and the first day of 1970 is at zero. Each moment is behind the
start of 1970 by one exact distance, counted in the days of the calendar, and its stamp is the distance rounded down. So of two
moments the earlier has no greater stamp, nor, if their clocks are equally far from universal time, has the one whose fields
come first. -/
theorem stamps_count_time :
    ((Value.date CalendarDate.epoch).stamp? = some 0 ∧
      ∀ d e : CalendarDate, d.next? = some e →
        ∃ t, (Value.date d).stamp? = some t ∧ (Value.date e).stamp? = some (t + 86400000)) ∧
    (∀ m : Moment, (∃! x, m.IsBehindEpoch x) ∧ ∀ x, m.IsBehindEpoch x → (Value.moment m).stamp? = some ⌊x⌋) ∧
    ∀ (m n : Moment) (s t : Int), (Value.moment m).stamp? = some s → (Value.moment n).stamp? = some t →
      (∀ x y, m.IsBehindEpoch x → n.IsBehindEpoch y → x ≤ y → s ≤ t) ∧
      (m.offset.getD Offset.zero = n.offset.getD Offset.zero →
        List.Lex (· < ·) m.fields n.fields ∨ m.fields = n.fields → s ≤ t) := by
  refine ⟨⟨?_, ?_⟩, ?_, ?_⟩
  · have hzero : CalendarDate.epoch.stamp = 0 := by decide
    rw [Value.stamp?_date, hzero]
  · intro d e hnext
    refine ⟨d.stamp, Value.stamp?_date d, ?_⟩
    rw [Value.stamp?_date, CalendarDate.stamp_next hnext]
  · intro m
    constructor
    · refine ⟨_, Moment.isBehindEpoch_iff.mpr rfl, ?_⟩
      intro x hx
      exact Moment.isBehindEpoch_iff.mp hx
    · intro x hx
      rw [Value.stamp?_moment, Moment.stamp_eq_floor hx]
  · intro m n s t hs ht
    rw [Value.stamp?_moment] at hs ht
    obtain rfl := Option.some.inj hs
    obtain rfl := Option.some.inj ht
    constructor
    · intro x y hx hy hle
      exact Moment.stamp_le_of_le hx hy hle
    · rintro hoffset (hlex | hsame)
      · exact Moment.stamp_le_of_lex hoffset hlex
      · exact Int.le_of_eq (Moment.stamp_eq_of_fields hoffset hsame)

/-- February of 1900 had no leap day. On a clock an hour ahead the year 1 begins before it does in universal time, and of the year
1969 a time 0.4 milliseconds before a whole millisecond is rounded down. -/
theorem stamps_count_time_1900 :
    ∃ (d e : CalendarDate) (m n : Moment),
      (d.year = 1900 ∧ d.month = 2 ∧ d.day = 28) ∧ (e.year = 1900 ∧ e.month = 3 ∧ e.day = 1) ∧
      m.fields = [1, 1, 1, 0, 0, 0, 0] ∧ n.fields = [1969, 12, 31, 23, 59, 59, 999600] ∧
      d.next? = some e ∧ (∃ t, (Value.date d).stamp? = some t ∧ (Value.date e).stamp? = some (t + 86400000)) ∧
      m.IsBehindEpoch (-62135600400000) ∧ (Value.moment m).stamp? = some (-62135600400000) ∧
      n.IsBehindEpoch (-3600000.4) ∧ (Value.moment n).stamp? = some (-3600001) ∧
      m.offset = n.offset ∧ List.Lex (· < ·) m.fields n.fields ∧ (-62135600400000 : Int) ≤ -3600001 := by
  let d : CalendarDate := ⟨1900, 2, 28, by decide⟩
  let e : CalendarDate := ⟨1900, 3, 1, by decide⟩
  let ahead : Offset := ⟨3600000000, by decide⟩
  let m : Moment := ⟨⟨1, 1, 1, by decide⟩, TimeOfDay.midnight, some ahead⟩
  let n : Moment := ⟨⟨1969, 12, 31, by decide⟩, ⟨23, 59, 59, 999600, by decide⟩, some ahead⟩
  have hnext : d.next? = some e := by decide
  have hm : m.IsBehindEpoch (-62135600400000) := by
    have hinstant : m.instant = -62135600400000000 := by decide
    rw [Moment.isBehindEpoch_iff, hinstant]
    norm_num
  have hn : n.IsBehindEpoch (-3600000.4) := by
    have hinstant : n.instant = -3600000400 := by decide
    rw [Moment.isBehindEpoch_iff, hinstant]
    norm_num
  have hlex : List.Lex (· < ·) m.fields n.fields := .rel (by decide)
  obtain ⟨⟨-, hstep⟩, hfloor, horder⟩ := stamps_count_time
  have hstampm : (Value.moment m).stamp? = some (-62135600400000) := by
    rw [(hfloor m).2 _ hm]
    norm_num
  have hstampn : (Value.moment n).stamp? = some (-3600001) := by
    rw [(hfloor n).2 _ hn]
    norm_num
  exact ⟨d, e, m, n, ⟨rfl, rfl, rfl⟩, ⟨rfl, rfl, rfl⟩, rfl, rfl, hnext, hstep d e hnext, hm, hstampm, hn, hstampn, rfl, hlex,
    (horder m n _ _ hstampm hstampn).2 rfl (.inl hlex)⟩

end RuleTree
