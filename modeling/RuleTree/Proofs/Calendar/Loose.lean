import RuleTree.Proofs.Calendar.RoundTrip
import RuleTree.Proofs.Text.Digits

/-!
# Dates without filling zeros

A year, a month and a day in digits of any script, with dashes or slashes between them, name the date of these numbers. The
international notation is tried first. It reads such a text only if it is the notation of that date, for it takes digits of its
own script alone, two for month and day, and dashes between them.
-/

namespace RuleTree

open Decimal Text

/-- A date as people write it: four digits for the year, one or two for month and day, and blanks around the whole. -/
structure LooseDate where
  before : List Char
  year : List Char
  first : Char
  month : List Char
  second : Char
  day : List Char
  behind : List Char
  blanks : (∀ c ∈ before, isBlank c = true) ∧ ∀ c ∈ behind, isBlank c = true
  digits : (∀ c ∈ year, isDecimal c = true) ∧ (∀ c ∈ month, isDecimal c = true) ∧ ∀ c ∈ day, isDecimal c = true
  lengths : year.length = 4 ∧ (1 ≤ month.length ∧ month.length ≤ 2) ∧ 1 ≤ day.length ∧ day.length ≤ 2
  separators : isLooseSeparator first = true ∧ isLooseSeparator second = true

namespace LooseDate

def chars (t : LooseDate) : List Char := t.year ++ t.first :: (t.month ++ t.second :: t.day)

def text (t : LooseDate) : String := String.ofList (t.before ++ t.chars ++ t.behind)

/-- Whether the numbers that are written are those of a date. -/
def Names (t : LooseDate) (d : CalendarDate) : Prop :=
  d.year = decimalValue t.year ∧ d.month = decimalValue t.month ∧ d.day = decimalValue t.day

end LooseDate

/-! ### Rows of digits -/

section Rows

variable {c : Char} {cs rest left : List Char} {width n : Nat}

theorem isDecimal_of_isLooseSeparator (h : isLooseSeparator c = true) : isDecimal c = false ∧ isDigit c = false := by
  simp only [isLooseSeparator, Bool.or_eq_true, beq_iff_eq] at h
  rcases h with rfl | rfl
  · exact ⟨by decide, by decide⟩
  · exact ⟨by decide, by decide⟩

theorem takeWhile_decimals (hcs : ∀ c ∈ cs, isDecimal c = true) (hc : isDecimal c = false) :
    (cs ++ c :: rest).takeWhile isDecimal = cs := by
  rw [List.takeWhile_append_of_pos hcs, List.takeWhile_cons, hc]
  exact List.append_nil cs

theorem dropWhile_decimals (hcs : ∀ c ∈ cs, isDecimal c = true) (hc : isDecimal c = false) :
    (cs ++ c :: rest).dropWhile isDecimal = c :: rest := by
  rw [List.dropWhile_append_of_pos hcs, List.dropWhile_cons, hc]
  rfl

/-- As many digits as are asked for are read from a row that is not longer only if they are all of the row. -/
theorem readDigits_whole (hlen : cs.length ≤ width) (hrest : ∀ c ∈ rest.head?, isDigit c = false)
    (h : readDigits width (cs ++ rest) = some (n, left)) :
    cs.length = width ∧ n = decimalValue cs ∧ left = rest := by
  unfold readDigits at h
  split at h
  · next hread =>
    obtain ⟨hwidth, hall⟩ := hread
    have hfull : cs.length = width := by
      cases rest with
      | nil =>
        rw [List.append_nil, List.length_take] at hwidth
        omega
      | cons d ds =>
        rcases Nat.lt_or_ge cs.length width with hshort | hlong
        · -- the character behind the row would be among the digits
          obtain ⟨k, hk⟩ : ∃ k, width - cs.length = k + 1 := ⟨width - cs.length - 1, by omega⟩
          have hmem : d ∈ (cs ++ d :: ds).take width := by
            rw [List.take_append, hk]
            simp
          have hdigit := List.all_eq_true.mp hall d hmem
          rw [hrest d rfl] at hdigit
          cases hdigit
        · omega
    rw [← hfull, List.take_left] at hall h
    rw [List.drop_left] at h
    cases h
    exact ⟨hfull, (decimalValue_of_isDigit (List.all_eq_true.mp hall)).symm, rfl⟩
  · cases h

theorem mem_of_append_eq_cons (hcs : 0 < cs.length) (h : cs ++ rest = c :: left) : c ∈ cs := by
  cases cs with
  | nil => cases hcs
  | cons d ds =>
    rw [List.cons_append, List.cons.injEq] at h
    exact h.1 ▸ List.mem_cons_self

end Rows

namespace LooseDate

variable (t : LooseDate) {d : CalendarDate} {m : Moment}

/-! ### The loose form -/

theorem readLooseDate_chars :
    readLooseDate t.chars = CalendarDate.ofNumbers? (decimalValue t.year) (decimalValue t.month) (decimalValue t.day) := by
  obtain ⟨hyear, hmonth, hday⟩ := t.digits
  obtain ⟨hfour, ⟨hmonth₁, hmonth₂⟩, hday₁, hday₂⟩ := t.lengths
  obtain ⟨hfirst, hsecond⟩ := t.separators
  have hfirst' := (isDecimal_of_isLooseSeparator hfirst).1
  have hsecond' := (isDecimal_of_isLooseSeparator hsecond).1
  rw [readLooseDate, chars]
  simp only [takeWhile_decimals hyear hfirst', dropWhile_decimals hyear hfirst', List.drop_succ_cons, List.drop_zero,
    takeWhile_decimals hmonth hsecond', dropWhile_decimals hmonth hsecond', List.head?_cons, Option.any_some, hfirst, hsecond,
    ofDecimalDigits?_eq hyear, ofDecimalDigits?_eq hmonth, ofDecimalDigits?_eq hday]
  simp [hfour, hmonth₁, hmonth₂, hday₁, hday₂]

/-! ### The international notation -/

/-- The place of the first separator tells how long a date is. -/
theorem dateLength_chars : dateLength t.chars = if t.first = '-' then 10 else 8 := by
  obtain ⟨hfour, ⟨hmonth, -⟩, hday, -⟩ := t.lengths
  obtain ⟨c, month, hc⟩ := List.exists_cons_of_ne_nil (List.ne_nil_of_length_pos hmonth)
  have hlen : t.chars.length ≠ 7 := by
    simp only [chars, List.length_append, List.length_cons]
    omega
  have hfirst : t.chars[4]? = some t.first := by
    rw [chars, List.getElem?_append_right (by omega), hfour]
    rfl
  have hnext : t.chars[5]? = some c := by
    rw [chars, List.getElem?_append_right (by omega), hfour, hc]
    rfl
  have hweek : c ≠ 'W' := by
    rintro rfl
    have hdecimal := t.digits.2.1 'W' (hc ▸ List.mem_cons_self)
    exact absurd hdecimal (by decide)
  have hbasic : t.first ≠ 'W' := by
    intro hw
    have hseparator := t.separators.1
    rw [hw] at hseparator
    exact absurd hseparator (by decide)
  simp [dateLength, hlen, hfirst, hnext, hweek, hbasic]

/-- Behind year and dash come two digits, a dash and two digits, or there is no date. -/
theorem names_of_readIsoDate (hdash : t.first = '-') (h : readIsoDate t.chars = some d) : t.Names d := by
  obtain ⟨hfour, ⟨hmonth, hmonth'⟩, hday, hday'⟩ := t.lengths
  obtain ⟨hfirst, hsecond⟩ := t.separators
  have hstop : ∀ (c : Char) (cs : List Char), isLooseSeparator c = true → ∀ e ∈ (c :: cs).head?, isDigit e = false := by
    intro c cs hc e he
    cases he
    exact (isDecimal_of_isLooseSeparator hc).2
  rw [readIsoDate] at h
  obtain ⟨⟨year, rest⟩, hyear, h⟩ := Option.bind_eq_some_iff.mp h
  obtain ⟨-, rfl, rfl⟩ := readDigits_whole (Nat.le_of_eq hfour) (hstop _ _ hfirst) hyear
  simp only [hdash, List.head?_cons, beq_self_eq_true, if_true, List.drop_succ_cons, List.drop_zero] at h
  split at h
  · next rest hweek =>
    have hdecimal := t.digits.2.1 'W' (mem_of_append_eq_cons hmonth hweek)
    exact absurd hdecimal (by decide)
  · obtain ⟨⟨month, rest⟩, hread, h⟩ := Option.bind_eq_some_iff.mp h
    obtain ⟨-, rfl, rfl⟩ := readDigits_whole hmonth' (hstop _ _ hsecond) hread
    obtain ⟨rest, hbehind, h⟩ := Option.bind_eq_some_iff.mp h
    split at hbehind
    · obtain rfl := Option.some.inj hbehind
      obtain ⟨⟨day, rest⟩, hread', h⟩ := Option.bind_eq_some_iff.mp h
      have hend : readDigits 2 (t.day ++ []) = some (day, rest) := by
        rw [List.append_nil]
        exact hread'
      obtain ⟨-, rfl, rfl⟩ := readDigits_whole hday' (fun e he => by cases he) hend
      exact CalendarDate.numbers_of_ofNumbers? h
    · cases hbehind

theorem readIsoDate_slash {year rest : List Char} (hfour : year.length = 4) : readIsoDate (year ++ '/' :: rest) = none := by
  have hstop : ∀ e ∈ ('/' :: rest).head?, isDigit e = false := by
    rintro e he
    cases he
    decide
  have hmonth : readDigits 2 ('/' :: rest) = none := by
    cases hread : readDigits 2 ('/' :: rest) with
    | none => rfl
    | some p =>
      have hlen : ([] : List Char).length = 2 := (readDigits_whole (by decide) hstop hread).1
      cases hlen
  cases hread : readDigits 4 (year ++ '/' :: rest) with
  | none => simp [readIsoDate, hread]
  | some p =>
    obtain ⟨-, -, hleft⟩ := readDigits_whole (Nat.le_of_eq hfour) hstop hread
    simp [readIsoDate, hread, hleft, hmonth]

/-- The international notation reads no moment but the midnight of the date whose numbers are written. -/
theorem names_of_readIsoMoment (h : readIsoMoment t.chars = some m) : ∃ d, t.Names d ∧ m = ⟨d, TimeOfDay.midnight, none⟩ := by
  obtain ⟨hfour, ⟨-, hmonth⟩, -, hday⟩ := t.lengths
  have hlen : t.chars.length ≤ 10 := by
    simp only [chars, List.length_append, List.length_cons]
    omega
  have hseparator := t.separators.1
  simp only [isLooseSeparator, Bool.or_eq_true, beq_iff_eq] at hseparator
  rw [readIsoMoment, dateLength_chars] at h
  rcases hseparator with hdash | hslash
  · rw [if_pos hdash, List.take_of_length_le hlen, List.drop_of_length_le hlen] at h
    obtain ⟨d, hd, hm⟩ := Option.bind_eq_some_iff.mp h
    exact ⟨d, t.names_of_readIsoDate hdash hd, (Option.some.inj hm).symm⟩
  · have hne : t.first ≠ '-' := by
      rw [hslash]
      decide
    have hfront : t.chars.take 8 = t.year ++ '/' :: (t.month ++ t.second :: t.day).take 3 := by
      rw [chars, List.take_append, hfour, List.take_of_length_le (by omega), hslash]
      rfl
    rw [if_neg hne, hfront, readIsoDate_slash hfour] at h
    cases h

/-! ### Texts -/

theorem strip_text : strip t.text.toList = t.chars := by
  obtain ⟨hfour, -, hday, -⟩ := t.lengths
  have hpos : 0 < t.year.length := by omega
  obtain ⟨c, year, hyear⟩ := List.exists_cons_of_length_pos hpos
  have hne : t.day ≠ [] := List.ne_nil_of_length_pos hday
  have hlast : t.day.dropLast ++ [t.day.getLast hne] = t.day := List.dropLast_concat_getLast hne
  rw [text, String.toList_ofList]
  refine strip_between t.blanks.1 t.blanks.2 ⟨c, year ++ t.first :: (t.month ++ t.second :: t.day), ?_, ?_⟩
    ⟨t.year ++ t.first :: (t.month ++ t.second :: t.day.dropLast), t.day.getLast hne, ?_, ?_⟩
  · rw [chars, hyear, List.cons_append]
  · exact isBlank_of_isDecimal (t.digits.1 c (hyear ▸ List.mem_cons_self))
  · simp only [chars, List.append_assoc, List.cons_append, hlast]
  · exact isBlank_of_isDecimal (t.digits.2.2 _ (List.getLast_mem hne))

theorem ofNumbers?_of_names (h : t.Names d) :
    CalendarDate.ofNumbers? (decimalValue t.year) (decimalValue t.month) (decimalValue t.day) = some d := by
  obtain ⟨hyear, hmonth, hday⟩ := h
  rw [← hyear, ← hmonth, ← hday, CalendarDate.ofNumbers?_self]

theorem read?_text : Moment.read? t.text =
    (CalendarDate.ofNumbers? (decimalValue t.year) (decimalValue t.month) (decimalValue t.day)).map CalendarDate.atMidnight := by
  rw [Moment.read?, strip_text]
  cases hread : readIsoMoment t.chars with
  | none => rw [readLooseDate_chars]
  | some m =>
    obtain ⟨d, hd, rfl⟩ := t.names_of_readIsoMoment hread
    rw [t.ofNumbers?_of_names hd]
    rfl

/-- The loose form agrees with the international notation. A text in it names midnight in universal time of the date whose numbers
are written, like the notation of that date, and if there is no such date, it names nothing. The notation, which is tried first,
reads it as no other moment. -/
theorem loose_form_agrees :
    (∀ d, t.Names d → Moment.read? t.text = some ⟨d, TimeOfDay.midnight, some Offset.zero⟩ ∧
      Moment.read? d.iso = Moment.read? t.text) ∧
    (¬IsDate (decimalValue t.year) (decimalValue t.month) (decimalValue t.day) → Moment.read? t.text = none) ∧
    ∀ m, readIsoMoment (strip t.text.toList) = some m → ∃ d, t.Names d ∧ m = ⟨d, TimeOfDay.midnight, none⟩ := by
  refine ⟨?_, ?_, ?_⟩
  · intro d hd
    have hread : Moment.read? t.text = some d.atMidnight := by
      rw [read?_text, t.ofNumbers?_of_names hd]
      rfl
    exact ⟨hread, (read?_date d).trans hread.symm⟩
  · intro hnone
    rw [read?_text, CalendarDate.ofNumbers?, dif_neg hnone]
    rfl
  · intro m hm
    rw [strip_text] at hm
    exact t.names_of_readIsoMoment hm

/-- A leap day in Arabic digits, between blanks, and a day that the month does not have. -/
theorem loose_form_agrees_leap_day :
    ∃ (t u : LooseDate) (d : CalendarDate),
      t.text = "\u2003٢٠٢٠/2-٢٩\n" ∧ t.Names d ∧ d.iso = "2020-02-29" ∧
      Moment.read? "\u2003٢٠٢٠/2-٢٩\n" = some ⟨d, TimeOfDay.midnight, some Offset.zero⟩ ∧
      Moment.read? "2020-02-29" = Moment.read? "\u2003٢٠٢٠/2-٢٩\n" ∧
      u.text = "2019-02-30" ∧ ¬IsDate (decimalValue u.year) (decimalValue u.month) (decimalValue u.day) ∧
      Moment.read? "2019-02-30" = none := by
  let t : LooseDate :=
    { before := ['\u2003'], year := ['٢', '٠', '٢', '٠'], first := '/', month := ['2'], second := '-', day := ['٢', '٩'],
      behind := ['\n'], blanks := ⟨List.all_eq_true.mp rfl, List.all_eq_true.mp rfl⟩,
      digits := ⟨List.all_eq_true.mp rfl, List.all_eq_true.mp rfl, List.all_eq_true.mp rfl⟩, lengths := by decide,
      separators := by decide }
  let u : LooseDate :=
    { before := [], year := ['2', '0', '1', '9'], first := '-', month := ['0', '2'], second := '-', day := ['3', '0'],
      behind := [], blanks := ⟨List.all_eq_true.mp rfl, List.all_eq_true.mp rfl⟩,
      digits := ⟨List.all_eq_true.mp rfl, List.all_eq_true.mp rfl, List.all_eq_true.mp rfl⟩, lengths := by decide,
      separators := by decide }
  let d : CalendarDate := ⟨2020, 2, 29, by decide⟩
  have ht : t.text = "\u2003٢٠٢٠/2-٢٩\n" := by
    rw [text, ← String.toList_inj, String.toList_ofList]
    decide
  have hu : u.text = "2019-02-30" := by
    rw [text, ← String.toList_inj, String.toList_ofList]
    decide
  have hd : d.iso = "2020-02-29" := by
    rw [CalendarDate.iso, ← String.toList_inj, String.toList_ofList]
    decide
  have hnames : t.Names d := ⟨by decide, by decide, by decide⟩
  have hnone : ¬IsDate (decimalValue u.year) (decimalValue u.month) (decimalValue u.day) := by decide
  obtain ⟨hread, hsame⟩ := t.loose_form_agrees.1 d hnames
  have hrefused := u.loose_form_agrees.2.1 hnone
  rw [ht] at hread hsame
  rw [hd] at hsame
  rw [hu] at hrefused
  exact ⟨t, u, d, ht, hnames, hd, hread, hsame, hu, hnone, hrefused⟩

end LooseDate

end RuleTree
