import RuleTree.Proofs.Calendar.Digits
import RuleTree.Proofs.Text.Digits

/-!
# Reading the international notation back

Every date and every moment is read back from its notation. The clock keeps its distance from universal time, unless the
distance is less than a second: such a distance is written, but read as none.
-/

namespace RuleTree

open Decimal

/-! ### Clocks -/

section Clocks

variable {next : Option Char} {separated : Option Bool} {more n : Nat} {tail : List Char}

theorem readFraction_six {micro : Nat} (h : micro < 1000000) :
    readFraction next (lastDigits 6 micro) =
      some { fields := [], micro := micro, clean := isTextEnd next } := by
  have hlen := length_lastDigits 6 micro
  have hread : readDigits 6 (lastDigits 6 micro) = some (micro, []) := by
    have hread := readDigits_lastDigits (show micro < Nat.pow 10 6 from h) []
    rwa [List.append_nil] at hread
  simp [readFraction, hlen, hread]

theorem readClock_end (h : n < 100) :
    readClock next separated (more + 1) (lastDigits 2 n) =
      some { fields := [n], micro := 0, clean := isTextEnd next } := by
  have hread := readDigits_lastDigits (show n < Nat.pow 10 2 from h) []
  rw [List.append_nil] at hread
  rw [readClock, hread]
  rfl

theorem readClock_colon (h : n < 100) (hsep : separated.getD true = true) (htail : tail ≠ []) :
    readClock next separated (more + 1) (lastDigits 2 n ++ ':' :: tail) =
      (readClock next (some true) more tail).map (·.push n) := by
  have hread := readDigits_lastDigits (show n < Nat.pow 10 2 from h) (':' :: tail)
  obtain ⟨c, cs, rfl⟩ := List.exists_cons_of_ne_nil htail
  rw [readClock, hread]
  simp [hsep]

theorem readClock_point (h : n < 100) (htail : tail ≠ []) :
    readClock next separated (more + 1) (lastDigits 2 n ++ '.' :: tail) =
      (readFraction next tail).map (·.push n) := by
  have hread := readDigits_lastDigits (show n < Nat.pow 10 2 from h) ('.' :: tail)
  obtain ⟨c, cs, rfl⟩ := List.exists_cons_of_ne_nil htail
  rw [readClock, hread]
  simp

theorem readClock_second {second micro : Nat} (hs : second < 60) (hm : micro < 1000000) :
    readClock next separated (more + 1) (lastDigits 2 second ++ fractionChars micro) =
      some { fields := [second], micro := micro, clean := isTextEnd next } := by
  have hs' : second < 100 := by omega
  unfold fractionChars
  by_cases h : micro = 0
  · rw [if_pos h, List.append_nil, readClock_end hs', h]
  · have hne : lastDigits 6 micro ≠ [] := by
      intro hnil
      have hlen := length_lastDigits 6 micro
      rw [hnil] at hlen
      cases hlen
    rw [if_neg h, readClock_point hs' hne, readFraction_six hm]
    rfl

theorem lastDigits_append_ne_nil (width n : Nat) (cs : List Char) : lastDigits (width + 1) n ++ cs ≠ [] := by
  intro h
  have hlen := length_lastDigits (width + 1) n
  rw [(List.append_eq_nil_iff.mp h).1] at hlen
  cases hlen

theorem readClock_minute {hour minute : Nat} {cs : List Char} {r : ClockReading} (hh : hour < 24) (hm : minute < 60)
    (hcs : cs ≠ []) (h : readClock next (some true) 1 cs = some r) :
    readClock next none 3 (lastDigits 2 hour ++ ':' :: lastDigits 2 minute ++ ':' :: cs) =
      some ((r.push minute).push hour) := by
  have htail := lastDigits_append_ne_nil 1 minute (':' :: cs)
  have hhour : hour < 100 := by omega
  have hminute : minute < 100 := by omega
  rw [List.append_assoc, List.cons_append, readClock_colon hhour rfl htail, readClock_colon hminute rfl hcs, h]
  rfl

end Clocks

/-! ### Times of day -/

theorem TimeOfDay.ofNumbers?_self (t : TimeOfDay) :
    TimeOfDay.ofNumbers? t.hour t.minute t.second t.micro = some t := by
  simp [TimeOfDay.ofNumbers?, t.isTime]

theorem readClock_time (t : TimeOfDay) (next : Option Char) :
    readClock next none 3 t.isoChars =
      some { fields := [t.hour, t.minute, t.second], micro := t.micro, clean := isTextEnd next } := by
  obtain ⟨hh, hm, hs, hmicro⟩ := t.isTime
  have hsecond : readClock next (some true) 1 (lastDigits 2 t.second ++ fractionChars t.micro) = _ :=
    readClock_second hs hmicro
  have hne := lastDigits_append_ne_nil 1 t.second (fractionChars t.micro)
  have hclock := readClock_minute hh hm hne hsecond
  rw [TimeOfDay.isoChars, List.append_assoc, List.cons_append, hclock]
  rfl

/-! ### Distances from universal time -/

/-- The distance that is read from a written one. -/
def Offset.reread (o : Offset) : Offset := if o.micros.natAbs < 1000000 then Offset.zero else o

theorem Offset.ofMicros?_self (o : Offset) : Offset.ofMicros? o.micros = some o := by
  simp [Offset.ofMicros?, o.isOffset]

def ClockReading.micros (r : ClockReading) : Nat := ((r.hour * 60 + r.minute) * 60 + r.second) * 1000000 + r.micro

theorem readClock_distance {total : Nat} (h : total < 86400000000) :
    ∃ r, readClock none none 3
      (lastDigits 2 (total / 3600000000) ++ ':' :: lastDigits 2 (total / 60000000 % 60) ++
        (if total / 1000000 % 60 = 0 ∧ total % 1000000 = 0 then []
          else ':' :: lastDigits 2 (total / 1000000 % 60) ++ fractionChars (total % 1000000))) = some r ∧
      r.clean = true ∧ r.micro < 1000000 ∧ r.micros = total := by
  have hhour : total / 3600000000 < 24 := by omega
  have hminute : total / 60000000 % 60 < 60 := Nat.mod_lt _ (by omega)
  have hsecond : total / 1000000 % 60 < 60 := Nat.mod_lt _ (by omega)
  have hmicro : total % 1000000 < 1000000 := Nat.mod_lt _ (by omega)
  by_cases hzero : total / 1000000 % 60 = 0 ∧ total % 1000000 = 0
  · have hne := lastDigits_append_ne_nil 1 (total / 60000000 % 60) []
    have hpos : 0 < 1000000 := by omega
    have hsum : ((total / 3600000000 * 60 + total / 60000000 % 60) * 60 + 0) * 1000000 + 0 = total := by omega
    rw [List.append_nil] at hne
    rw [if_pos hzero, List.append_nil, readClock_colon (by omega) rfl hne, readClock_end (by omega)]
    exact ⟨_, rfl, rfl, hpos, hsum⟩
  · have hfine : readClock none (some true) 1
        (lastDigits 2 (total / 1000000 % 60) ++ fractionChars (total % 1000000)) = _ := readClock_second hsecond hmicro
    have hne := lastDigits_append_ne_nil 1 (total / 1000000 % 60) (fractionChars (total % 1000000))
    have hsum : ((total / 3600000000 * 60 + total / 60000000 % 60) * 60 + total / 1000000 % 60) * 1000000
        + total % 1000000 = total := by omega
    rw [if_neg hzero, List.cons_append, readClock_minute hhour hminute hne hfine]
    exact ⟨_, rfl, rfl, hmicro, hsum⟩

theorem readOffset_sign (sign : Char) {cs : List Char} {r : ClockReading} (hsign : sign ≠ 'Z')
    (h : readClock none none 3 cs = some r) (hclean : r.clean = true) (hmicro : r.micro < 1000000) :
    readOffset (sign :: cs) =
      if r.micros < 1000000 then some Offset.zero
      else Offset.ofMicros? (if sign = '-' then -(r.micros : Int) else r.micros) := by
  have hseconds : (r.hour * 60 + r.minute) * 60 + r.second = 0 ↔ r.micros < 1000000 := by
    unfold ClockReading.micros
    omega
  rw [readOffset]
  · simp only [h, hclean, hseconds, Option.bind_eq_bind, Option.bind_some, Bool.not_true, Bool.false_eq_true, if_false]
    rfl
  · exact hsign

/-- A distance of less than a second is lost. -/
theorem readOffset_isoChars (o : Offset) : readOffset o.isoChars = some o.reread := by
  have htotal : o.micros.natAbs < 86400000000 := by
    have ho := o.isOffset
    omega
  obtain ⟨r, hclock, hclean, hmicro, hr⟩ := readClock_distance htotal
  have hreread : ∀ micros : Int, micros = o.micros →
      (if r.micros < 1000000 then some Offset.zero else Offset.ofMicros? micros) = some o.reread := by
    intro micros hm
    rw [hm, hr, Offset.ofMicros?_self, Offset.reread]
    split <;> rfl
  rw [Offset.isoChars]
  by_cases hneg : o.micros < 0
  · have hmicros : (if '-' = '-' then -(r.micros : Int) else r.micros) = o.micros := by
      rw [if_pos rfl]
      omega
    rw [if_pos hneg]
    exact (readOffset_sign '-' (by decide) hclock hclean hmicro).trans (hreread _ hmicros)
  · have hmicros : (if '+' = '-' then -(r.micros : Int) else r.micros) = o.micros := by
      rw [if_neg (by decide)]
      omega
    rw [if_neg hneg]
    exact (readOffset_sign '+' (by decide) hclock hclean hmicro).trans (hreread _ hmicros)

/-! ### Moments -/

/-- The moment that is read from a written one. -/
def Moment.reread (m : Moment) : Moment :=
  { m with offset := some ((m.offset.map Offset.reread).getD Offset.zero) }

section Moments

theorem daysInMonth_le (year month : Nat) : daysInMonth year month ≤ 31 := by
  unfold daysInMonth
  split
  all_goals first | omega | (split <;> omega)

theorem head_of_lastDigits_append {width n : Nat} {c : Char} {cs rest : List Char}
    (h : lastDigits (width + 1) n ++ cs = c :: rest) : isDigit c = true := by
  have hlen := length_lastDigits (width + 1) n
  obtain ⟨a, as, has⟩ : ∃ a as, lastDigits (width + 1) n = a :: as := by
    cases hds : lastDigits (width + 1) n with
    | nil =>
      rw [hds] at hlen
      cases hlen
    | cons a as => exact ⟨a, as, rfl⟩
  rw [has, List.cons_append, List.cons.injEq] at h
  obtain ⟨rfl, -⟩ := h
  refine all_isDigit_lastDigits (width + 1) n a ?_
  rw [has]
  exact List.mem_cons_self

variable (d : CalendarDate) (t : TimeOfDay)

theorem readIsoDate_isoChars : readIsoDate d.isoChars = some d := by
  obtain ⟨-, hyear, -, hmonth, -, hday⟩ := d.isDate
  have hdays := daysInMonth_le d.year d.month
  have hyear' : d.year < Nat.pow 10 4 := by
    have hpow : Nat.pow 10 4 = 10000 := rfl
    omega
  have hmonth' : d.month < Nat.pow 10 2 := by
    have hpow : Nat.pow 10 2 = 100 := rfl
    omega
  have hday' : d.day < Nat.pow 10 2 := by
    have hpow : Nat.pow 10 2 = 100 := rfl
    omega
  have hreadYear := readDigits_lastDigits hyear' ('-' :: (lastDigits 2 d.month ++ '-' :: lastDigits 2 d.day))
  have hreadMonth := readDigits_lastDigits hmonth' ('-' :: lastDigits 2 d.day)
  have hreadDay := readDigits_lastDigits hday' []
  rw [List.append_nil] at hreadDay
  have hchars : d.isoChars = lastDigits 4 d.year ++ '-' :: (lastDigits 2 d.month ++ '-' :: lastDigits 2 d.day) := by
    simp only [CalendarDate.isoChars, List.append_assoc, List.cons_append]
  rw [hchars, readIsoDate, hreadYear]
  simp only [Option.bind_eq_bind, Option.bind_some, List.head?_cons, beq_self_eq_true, if_true, List.drop_succ_cons,
    List.drop_zero]
  split
  · next rest hweek =>
    have hdigit := head_of_lastDigits_append hweek
    exact absurd hdigit (by decide)
  · simp [hreadMonth, hreadDay, CalendarDate.ofNumbers?_self]

theorem isZoneMark_of_isDigit {c : Char} (h : isDigit c = true) : isZoneMark c = false := by
  rw [Bool.eq_false_iff]
  intro hmark
  simp only [isZoneMark, Bool.or_eq_true, beq_iff_eq] at hmark
  rcases hmark with (rfl | rfl) | rfl
  · exact absurd h (by decide)
  · exact absurd h (by decide)
  · exact absurd h (by decide)

theorem isZoneMark_time : ∀ c ∈ t.isoChars, isZoneMark c = false := by
  intro c hc
  have hdigits : ∀ width n, c ∈ lastDigits width n → isZoneMark c = false := fun width n h =>
    isZoneMark_of_isDigit (all_isDigit_lastDigits width n c h)
  have hfraction : c ∈ fractionChars t.micro → isZoneMark c = false := by
    unfold fractionChars
    intro h
    split at h
    · cases h
    · rcases List.mem_cons.mp h with rfl | h
      · decide
      · exact hdigits 6 _ h
  simp only [TimeOfDay.isoChars, List.mem_append, List.mem_cons] at hc
  rcases hc with ((hc | rfl | hc) | rfl | hc) | hc
  · exact hdigits 2 _ hc
  · decide
  · exact hdigits 2 _ hc
  · decide
  · exact hdigits 2 _ hc
  · exact hfraction hc

theorem exists_mark_of_isoChars (o : Offset) : ∃ c cs, o.isoChars = c :: cs ∧ isZoneMark c = true := by
  have hmark : isZoneMark (if o.micros < 0 then '-' else '+') = true := by
    split <;> decide
  exact ⟨_, _, rfl, hmark⟩

def zoneChars (o : Option Offset) : List Char := (o.map Offset.isoChars).getD []

theorem takeWhile_zoneChars (o : Option Offset) : (zoneChars o).takeWhile (!isZoneMark ·) = [] := by
  cases o with
  | none => rfl
  | some o =>
    obtain ⟨c, cs, hchars, hc⟩ := exists_mark_of_isoChars o
    rw [zoneChars, Option.map_some, Option.getD_some, hchars, List.takeWhile_cons, hc]
    rfl

theorem dropWhile_zoneChars (o : Option Offset) : (zoneChars o).dropWhile (!isZoneMark ·) = zoneChars o := by
  cases o with
  | none => rfl
  | some o =>
    obtain ⟨c, cs, hchars, hc⟩ := exists_mark_of_isoChars o
    rw [zoneChars, Option.map_some, Option.getD_some, hchars, List.dropWhile_cons, hc]
    rfl

theorem readIsoTime_isoChars (o : Option Offset) :
    readIsoTime (t.isoChars ++ zoneChars o) = some (t, o.map Offset.reread) := by
  have hmarks : ∀ c ∈ t.isoChars, (!isZoneMark c) = true := by
    intro c hc
    rw [isZoneMark_time t c hc]
    rfl
  have hclock : (t.isoChars ++ zoneChars o).takeWhile (!isZoneMark ·) = t.isoChars := by
    rw [List.takeWhile_append_of_pos hmarks, takeWhile_zoneChars, List.append_nil]
  have hzone : (t.isoChars ++ zoneChars o).dropWhile (!isZoneMark ·) = zoneChars o := by
    rw [List.dropWhile_append_of_pos hmarks, dropWhile_zoneChars]
  have htime : TimeOfDay.ofNumbers? t.hour t.minute t.second t.micro = some t := t.ofNumbers?_self
  rw [readIsoTime]
  simp only [hclock, hzone, readClock_time, Option.bind_eq_bind, Option.bind_some]
  cases o with
  | none =>
    change (TimeOfDay.ofNumbers? t.hour t.minute t.second t.micro).bind (fun time => some (time, none)) = _
    rw [htime]
    rfl
  | some o =>
    obtain ⟨c, cs, hchars, hc⟩ := exists_mark_of_isoChars o
    have hne : (zoneChars (some o)).isEmpty = false := by
      rw [zoneChars, Option.map_some, Option.getD_some, hchars]
      rfl
    have hoffset : readOffset (zoneChars (some o)) = some o.reread := readOffset_isoChars o
    rw [hne, hoffset]
    change (TimeOfDay.ofNumbers? t.hour t.minute t.second t.micro).bind (fun time => some (time, some o.reread)) = _
    rw [htime]
    rfl

theorem dateLength_isoChars (rest : List Char) : dateLength (d.isoChars ++ rest) = 10 := by
  have hlen : (d.isoChars ++ rest).length ≠ 7 := by
    rw [List.length_append, d.length_isoChars]
    omega
  have hdash : (d.isoChars ++ rest)[4]? = some '-' := rfl
  have hmonth : (d.isoChars ++ rest)[5]? = some (digitChar (d.month / 10 % 10)) := rfl
  have hweek : some (digitChar (d.month / 10 % 10)) ≠ some 'W' := by
    intro h
    have hdigit := isDigit_digitChar (Nat.mod_lt (d.month / 10) (by omega : 0 < 10))
    rw [Option.some.inj h] at hdigit
    exact absurd hdigit (by decide)
  rw [dateLength, if_neg hlen, if_pos hdash, hmonth, if_neg hweek]

theorem readIsoMoment_date : readIsoMoment d.isoChars = some ⟨d, TimeOfDay.midnight, none⟩ := by
  have hlen := dateLength_isoChars d []
  rw [List.append_nil] at hlen
  have htake : d.isoChars.take 10 = d.isoChars := List.take_of_length_le (Nat.le_of_eq d.length_isoChars)
  have hdrop : d.isoChars.drop 10 = [] := List.drop_of_length_le (Nat.le_of_eq d.length_isoChars)
  rw [readIsoMoment]
  simp only [hlen, htake, hdrop, readIsoDate_isoChars, Option.bind_eq_bind, Option.bind_some]

theorem readIsoMoment_charsWith (separator : Char) (m : Moment) :
    readIsoMoment (m.charsWith separator) = some { m with offset := m.offset.map Offset.reread } := by
  have hchars : m.charsWith separator = m.date.isoChars ++ separator :: (m.time.isoChars ++ zoneChars m.offset) := by
    unfold Moment.charsWith zoneChars
    cases m.offset with
    | none => simp
    | some o => simp
  have hlen := dateLength_isoChars m.date (separator :: (m.time.isoChars ++ zoneChars m.offset))
  have htake : (m.date.isoChars ++ separator :: (m.time.isoChars ++ zoneChars m.offset)).take 10 = m.date.isoChars :=
    List.take_left' m.date.length_isoChars
  have hdrop : (m.date.isoChars ++ separator :: (m.time.isoChars ++ zoneChars m.offset)).drop 10 =
      separator :: (m.time.isoChars ++ zoneChars m.offset) := List.drop_left' m.date.length_isoChars
  rw [hchars, readIsoMoment]
  simp only [hlen, htake, hdrop, readIsoDate_isoChars, readIsoTime_isoChars, Option.bind_eq_bind, Option.bind_some]

/-! ### Texts -/

theorem isBlank_of_isDigit {c : Char} (h : isDigit c = true) : Text.isBlank c = false := by
  refine Text.isBlank_of_isDecimal ?_
  rw [Text.isDecimal, Text.decimalDigit?_of_isDigit h]
  rfl

theorem strip_of_digits {cs : List Char} (hfirst : ∃ c rest, cs = c :: rest ∧ isDigit c = true)
    (hlast : ∃ front e, cs = front ++ [e] ∧ isDigit e = true) : Text.strip cs = cs := by
  obtain ⟨c, rest, hcs, hc⟩ := hfirst
  obtain ⟨front, e, hes, he⟩ := hlast
  have hnone : ∀ c ∈ ([] : List Char), Text.isBlank c = true := List.forall_mem_nil _
  have hstrip := Text.strip_between hnone hnone ⟨c, rest, hcs, isBlank_of_isDigit hc⟩ ⟨front, e, hes, isBlank_of_isDigit he⟩
  rwa [List.nil_append, List.append_nil] at hstrip

theorem last_of_lastDigits (cs : List Char) (width n : Nat) :
    ∃ front e, cs ++ lastDigits (width + 1) n = front ++ [e] ∧ isDigit e = true := by
  refine ⟨cs ++ lastDigits width (n / 10), digitChar (n % 10), ?_, isDigit_digitChar (Nat.mod_lt n (by omega))⟩
  rw [lastDigits, List.append_assoc]

theorem last_of_fraction (cs : List Char) (n micro : Nat) :
    ∃ front e, cs ++ (lastDigits 2 n ++ fractionChars micro) = front ++ [e] ∧ isDigit e = true := by
  unfold fractionChars
  split
  · rw [List.append_nil]
    exact last_of_lastDigits cs 1 n
  · have hlast := last_of_lastDigits (cs ++ (lastDigits 2 n ++ ['.'])) 5 micro
    simpa only [List.append_assoc, List.singleton_append] using hlast

theorem first_of_date (rest : List Char) : ∃ c cs, d.isoChars ++ rest = c :: cs ∧ isDigit c = true :=
  ⟨_, _, rfl, isDigit_digitChar (Nat.mod_lt _ (by omega))⟩

theorem last_of_time (cs : List Char) : ∃ front e, cs ++ t.isoChars = front ++ [e] ∧ isDigit e = true := by
  have hlast := last_of_fraction (cs ++ (lastDigits 2 t.hour ++ ':' :: lastDigits 2 t.minute ++ [':'])) t.second t.micro
  simpa only [TimeOfDay.isoChars, List.append_assoc, List.cons_append, List.nil_append] using hlast

theorem last_of_offset (cs : List Char) (o : Offset) :
    ∃ front e, cs ++ o.isoChars = front ++ [e] ∧ isDigit e = true := by
  rw [Offset.isoChars]
  generalize (if o.micros < 0 then '-' else '+') = sign
  split
  · have hlast := last_of_lastDigits (cs ++ (sign :: lastDigits 2 (o.micros.natAbs / 3600000000) ++ [':'])) 1
      (o.micros.natAbs / 60000000 % 60)
    simpa only [List.append_assoc, List.cons_append, List.nil_append, List.append_nil] using hlast
  · have hlast := last_of_fraction (cs ++ (sign :: lastDigits 2 (o.micros.natAbs / 3600000000) ++
      ':' :: lastDigits 2 (o.micros.natAbs / 60000000 % 60) ++ [':'])) (o.micros.natAbs / 1000000 % 60)
      (o.micros.natAbs % 1000000)
    simpa only [List.append_assoc, List.cons_append, List.nil_append] using hlast

theorem last_of_moment (separator : Char) (m : Moment) :
    ∃ front e, m.charsWith separator = front ++ [e] ∧ isDigit e = true := by
  unfold Moment.charsWith
  cases m.offset with
  | none =>
    have hlast := last_of_time m.time (m.date.isoChars ++ [separator])
    simpa only [List.append_assoc, List.cons_append, List.nil_append, List.append_nil] using hlast
  | some o => exact last_of_offset _ o

theorem read?_date : Moment.read? d.iso = some d.atMidnight := by
  have hlast := last_of_lastDigits (lastDigits 4 d.year ++ '-' :: lastDigits 2 d.month ++ ['-']) 1 d.day
  have hfirst := first_of_date d []
  have hstrip : Text.strip d.isoChars = d.isoChars := by
    refine strip_of_digits ?_ ?_
    · simpa only [List.append_nil] using hfirst
    · simpa only [CalendarDate.isoChars, List.append_assoc, List.cons_append, List.nil_append] using hlast
  rw [Moment.read?, CalendarDate.iso, String.toList_ofList, hstrip, readIsoMoment_date]
  rfl

/-- Reading undoes writing, except for distances of less than a second. -/
theorem read?_iso (m : Moment) : Moment.read? m.iso = some m.reread := by
  have hfirst := first_of_date m.date
  have hstrip : Text.strip (m.charsWith 'T') = m.charsWith 'T' := by
    refine strip_of_digits ?_ (last_of_moment 'T' m)
    rw [Moment.charsWith, List.append_assoc]
    exact hfirst _
  rw [Moment.read?, Moment.iso, String.toList_ofList, hstrip, readIsoMoment_charsWith]
  rfl

end Moments

/-! ### Milliseconds -/

/-- Whether a moment is at the same millisecond when its distance from universal time is taken for none, should the distance be
less than a second. -/
def Moment.Faithful (m : Moment) : Prop :=
  ∀ o, m.offset = some o → o.micros.natAbs < 1000000 → (m.instant + o.micros) / 1000 = m.instant / 1000

theorem Moment.stamp_reread_iff (m : Moment) : m.reread.stamp = m.stamp ↔ m.Faithful := by
  obtain ⟨date, time, offset⟩ := m
  cases offset with
  | none =>
    have hsame : (Moment.mk date time none).reread = (Moment.mk date time none).withZone := rfl
    have hinstant := instant_withZone (Moment.mk date time none)
    refine iff_of_true ?_ ?_
    · rw [stamp, stamp, hsame, hinstant]
    · intro o ho
      cases ho
  | some o =>
    by_cases hsmall : o.micros.natAbs < 1000000
    · have hreread : o.reread = Offset.zero := if_pos hsmall
      have hinstant : (Moment.mk date time (some o)).reread.instant =
          (Moment.mk date time (some o)).instant + o.micros := by
        simp only [reread, instant, hreread, Option.map_some, Option.getD_some, Offset.zero]
        omega
      rw [stamp, stamp, hinstant]
      constructor
      · intro h o' ho _
        cases ho
        exact h
      · exact fun h => h o rfl hsmall
    · have hreread : o.reread = o := if_neg hsmall
      have hsame : (Moment.mk date time (some o)).reread = Moment.mk date time (some o) := by
        simp only [reread, hreread, Option.map_some, Option.getD_some]
      rw [hsame]
      refine iff_of_true rfl ?_
      intro o' ho hsmall'
      cases ho
      exact absurd hsmall' hsmall

end RuleTree
