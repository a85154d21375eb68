import RuleTree.Proofs.Calendar.RoundTrip
import RuleTree.Value.Display

/-!
# Values and their international notation

A date or a moment and the text that it is written as stand for the same moment, so they have the same stamp, and they are shown
alike. The distance of the clock from universal time is kept if it is one of whole seconds.
-/

namespace RuleTree

/-- Whether a clock is a whole number of seconds from universal time, or at no known distance. -/
def Moment.WholeSeconds (m : Moment) : Prop := ∀ o, m.offset = some o → ∃ seconds, Offset.ofSeconds? seconds = some o

theorem Offset.micros_of_ofSeconds? {seconds : Int} {o : Offset} (h : Offset.ofSeconds? seconds = some o) :
    o.micros = seconds * 1000000 := by
  unfold Offset.ofSeconds? Offset.ofMicros? at h
  split at h
  · obtain rfl := Option.some.inj h
    rfl
  · cases h

theorem Offset.reread_of_ofSeconds? {seconds : Int} {o : Offset} (h : Offset.ofSeconds? seconds = some o) : o.reread = o := by
  have hmicros := micros_of_ofSeconds? h
  unfold reread
  split
  · next hsmall =>
    -- a whole number of seconds that is less than one second is none
    have hzero : o.micros = 0 := by omega
    obtain ⟨micros, ho⟩ := o
    obtain rfl : micros = 0 := hzero
    rfl
  · rfl

theorem Moment.reread_of_wholeSeconds {m : Moment} (h : m.WholeSeconds) : m.reread = m.withZone := by
  unfold reread withZone
  cases ho : m.offset with
  | none => rfl
  | some o =>
    obtain ⟨seconds, hseconds⟩ := h o ho
    rw [Option.map_some, Offset.reread_of_ofSeconds? hseconds]

/-- Reading undoes writing. The text of a date is read as its midnight in universal time. The text of a moment is read as the
moment, with the same fields and at the same distance from universal time, or at none if it has no known one. So text and value
have one stamp, and they are shown alike. -/
theorem read_undoes_iso (d : CalendarDate) (m : Moment) (h : m.WholeSeconds) :
    (Moment.read? d.iso = some ⟨d, TimeOfDay.midnight, some Offset.zero⟩ ∧
      (Value.str d.iso).stamp? = (Value.date d).stamp? ∧
      (Value.date d).displayDate = d.iso ∧ (Value.str d.iso).displayDate = (Value.date d).displayDate) ∧
    Moment.read? m.iso = some ⟨m.date, m.time, some (m.offset.getD Offset.zero)⟩ ∧
      (Value.str m.iso).stamp? = (Value.moment m).stamp? ∧
      (Value.moment m).displayDate = m.iso ∧ (Value.str m.iso).displayDate = (Value.moment m).displayDate := by
  have hdate : Moment.read? d.iso = some d.atMidnight := read?_date d
  have hmoment : Moment.read? m.iso = some m.withZone := by
    rw [read?_iso, Moment.reread_of_wholeSeconds h]
  refine ⟨⟨hdate, ?_, rfl, rfl⟩, hmoment, ?_, rfl, rfl⟩
  · show (Moment.read? d.iso).map Moment.stamp = some d.atMidnight.stamp
    rw [hdate]
    rfl
  · show (Moment.read? m.iso).map Moment.stamp = some m.withZone.stamp
    rw [hmoment]
    rfl

theorem read_undoes_iso_year_one :
    ∃ (d : CalendarDate) (m : Moment),
      d.iso = "0001-01-01" ∧ m.iso = "0001-01-01T00:00:00.000007-23:59:59" ∧ m.WholeSeconds ∧
      Moment.read? "0001-01-01" = some d.atMidnight ∧
      Moment.read? "0001-01-01T00:00:00.000007-23:59:59" = some m ∧
      (Value.str m.iso).stamp? = (Value.moment m).stamp? ∧ (Value.str m.iso).displayDate = (Value.moment m).displayDate := by
  let d : CalendarDate := ⟨1, 1, 1, by decide⟩
  let o : Offset := ⟨-86399000000, by decide⟩
  let m : Moment := ⟨d, ⟨0, 0, 0, 7, by decide⟩, some o⟩
  have hd : d.iso = "0001-01-01" := by
    rw [CalendarDate.iso, ← String.toList_inj, String.toList_ofList]
    decide
  have hm : m.iso = "0001-01-01T00:00:00.000007-23:59:59" := by
    rw [Moment.iso, ← String.toList_inj, String.toList_ofList]
    decide
  have hwhole : m.WholeSeconds := by
    intro o' ho
    cases ho
    exact ⟨-86399, rfl⟩
  obtain ⟨⟨hdate, -⟩, hmoment, hstamp, -, hdisplay⟩ := read_undoes_iso d m hwhole
  exact ⟨d, m, hd, hm, hwhole, hd ▸ hdate, hm ▸ hmoment, hstamp, hdisplay⟩

end RuleTree
