import RuleTree.Proofs.Validator.Verdict
import RuleTree.Text.CommonNames

/-!
# Checks that compare

The checks of one container look at one line: the checks of dates at the milliseconds of instants, the checks of numbers at
exact places, a length being a whole number. What a check decides is a comparison on this line and nothing else, so the checks
of a container agree with each other whatever the forms of the values that are compared.
-/

namespace RuleTree

open Validator

/-- Of three verdicts that place one thing below, at and above another, one is favourable and two are not. -/
theorem count_trichotomy {α : Type} [LinearOrder α] {x y : α} {p q r : Bool} (hp : p = true ↔ x < y)
    (hq : q = true ↔ x = y) (hr : r = true ↔ y < x) :
    [some p, some q, some r].count (some true) = 1 ∧ [some p, some q, some r].count (some false) = 2 := by
  rw [Bool.eq_iff_iff.mpr (hp.trans decide_eq_true_iff.symm), Bool.eq_iff_iff.mpr (hq.trans decide_eq_true_iff.symm),
    Bool.eq_iff_iff.mpr (hr.trans decide_eq_true_iff.symm)]
  rcases lt_trichotomy x y with h | h | h
  · simp [h, h.ne, h.not_gt]
  · simp [h]
  · simp [h, h.ne', h.not_gt]

/-! ### Dates -/

namespace Value

theorem stamp?_of_moment? {v : Value} {m : Moment} (h : v.moment? = some m) : v.stamp? = some m.stamp := by
  rw [stamp?, h]
  rfl

theorem moment?_of_stamp? {v : Value} {stamp : Int} (h : v.stamp? = some stamp) :
    ∃ m, v.moment? = some m ∧ m.stamp = stamp := Option.map_eq_some_iff.mp h

/-- Whatever names a moment is taken by a container of dates, and shown to the checks at the same millisecond. -/
theorem admits_of_moment? {v : Value} {m : Moment} (h : v.moment? = some m) :
    ∃ seen, Primitive.date.Admits v seen ∧ seen.stamp? = some m.stamp := by
  cases v with
  | date d =>
    cases h
    exact ⟨.date d, .date d, rfl⟩
  | moment n =>
    cases h
    exact ⟨.moment n, .moment n, rfl⟩
  | str s => exact ⟨.moment m, .written s m h, rfl⟩
  | _ => cases h

end Value

section Dates

variable {v b e : Value} {m n o : Moment}

theorem isDate_of_moment? (h : b.moment? = some n) : b.IsDate :=
  Value.isDate_iff.mpr ⟨n.stamp, Value.stamp?_of_moment? h⟩

variable [Text.CharacterNames]

theorem verdict_dateBound (k : DateBound) (hv : v.moment? = some m) (hb : b.moment? = some n) :
    (Check.dateBound k b).verdict .date v = some (k.allows m.stamp n.stamp) := by
  obtain ⟨seen, hseen, hs⟩ := Value.admits_of_moment? hv
  refine verdict_of_told rfl (by cases k <;> decide) (by simp) (isDate_of_moment? hb) rfl rfl hseen ?_
  rw [DateBound.allows_iff, Check.Holds, hs, Value.stamp?_of_moment? hb]
  simp

theorem verdict_equal_date (hv : v.moment? = some m) (hb : b.moment? = some n) :
    (Check.equal b).verdict .date v = some (m.stamp == n.stamp) := by
  obtain ⟨seen, hseen, hs⟩ := Value.admits_of_moment? hv
  have hmatches : seen.Matches b ↔ b.stamp? = seen.stamp? := by
    cases hseen with
    | date d => rw [Value.stamp?_date, Value.Matches]
    | _ => exact Iff.rfl
  have hshown : b.isWritable = true := isWritable_of_stamp? (Value.stamp?_of_moment? hb)
  refine verdict_of_told rfl (by decide) (by simp) (isDate_of_moment? hb) hshown rfl hseen ?_
  rw [Check.Holds, hmatches, hs, Value.stamp?_of_moment? hb, Option.some.injEq, beq_iff_eq]
  exact eq_comm

theorem wellFormed_between_iff (hb : b.moment? = some n) (he : e.moment? = some o) :
    (Check.between b e).WellFormed .date ↔ n.stamp < o.stamp := by
  rw [Check.WellFormed, Value.stamp?_of_moment? hb, Value.stamp?_of_moment? he]
  simp

theorem verdict_between (hv : v.moment? = some m) (hb : b.moment? = some n) (he : e.moment? = some o)
    (h : n.stamp < o.stamp) :
    (Check.between b e).verdict .date v =
      some (DateBound.notBefore.allows m.stamp n.stamp && DateBound.notAfter.allows m.stamp o.stamp) := by
  obtain ⟨seen, hseen, hs⟩ := Value.admits_of_moment? hv
  refine verdict_of_told rfl (by decide) (by simp) ((wellFormed_between_iff hb he).mpr h) rfl rfl hseen ?_
  rw [Check.Holds, hs, Value.stamp?_of_moment? hb, Value.stamp?_of_moment? he]
  simp [DateBound.allows]

theorem verdict_between_of_le (hb : b.moment? = some n) (he : e.moment? = some o) (h : ¬n.stamp < o.stamp) :
    (Check.between b e).verdict .date v = none := by
  apply verdict_eq_none
  rw [exists_ofTree_alone_iff rfl (by decide) (by simp), wellFormed_between_iff hb he]
  exact fun h' => h h'.1

end Dates

theorem Moment.instant_lt_of_stamp_lt {m n : Moment} (h : m.stamp < n.stamp) : m.instant < n.instant := by
  unfold stamp at h
  omega

/-- The checks of dates agree with each other and with the order of instants. -/
theorem date_checks_agree [Text.CharacterNames] {v b e : Value} {m n o : Moment} (hv : v.moment? = some m)
    (hb : b.moment? = some n) (he : e.moment? = some o) :
    let before := (Check.dateBound .before b).verdict .date v
    let equal := (Check.equal b).verdict .date v
    let after := (Check.dateBound .after b).verdict .date v
    ([before, equal, after].count (some true) = 1 ∧ [before, equal, after].count (some false) = 2) ∧
    (Check.dateBound .notBefore b).verdict .date v = before.map (!·) ∧
    (Check.dateBound .notAfter b).verdict .date v = after.map (!·) ∧
    ((∃ d, ofTree ((Check.between b e).alone .date) = .ok d) ↔ n.stamp < o.stamp) ∧
    (n.stamp < o.stamp → ((Check.between b e).verdict .date v = some true ↔
      (Check.dateBound .notBefore b).verdict .date v = some true ∧
        (Check.dateBound .notAfter e).verdict .date v = some true)) ∧
    (before = some true → m.instant < n.instant) ∧
    (after = some true → n.instant < m.instant) ∧
    ∀ v' b' e' : Value, v'.stamp? = v.stamp? → b'.stamp? = b.stamp? → e'.stamp? = e.stamp? →
      (∀ k, (Check.dateBound k b').verdict .date v' = (Check.dateBound k b).verdict .date v) ∧
      (Check.equal b').verdict .date v' = equal ∧
      (Check.between b' e').verdict .date v' = (Check.between b e).verdict .date v := by
  intro before equal after
  have hbefore : before = some (decide (m.stamp < n.stamp)) := verdict_dateBound .before hv hb
  have hequal : equal = some (m.stamp == n.stamp) := verdict_equal_date hv hb
  have hafter : after = some (decide (n.stamp < m.stamp)) := verdict_dateBound .after hv hb
  refine ⟨?_, ?_, ?_, ?_, ?_, ?_, ?_, ?_⟩
  · rw [hbefore, hequal, hafter]
    exact count_trichotomy decide_eq_true_iff beq_iff_eq decide_eq_true_iff
  · rw [verdict_dateBound .notBefore hv hb, hbefore]
    simp [DateBound.allows, ← decide_not]
  · rw [verdict_dateBound .notAfter hv hb, hafter]
    simp [DateBound.allows, ← decide_not]
  · rw [exists_ofTree_alone_iff rfl (by decide) (by simp), wellFormed_between_iff hb he]
    exact and_iff_left rfl
  · intro h
    rw [verdict_between hv hb he h, verdict_dateBound .notBefore hv hb, verdict_dateBound .notAfter hv he]
    simp
  · intro h
    rw [hbefore] at h
    exact Moment.instant_lt_of_stamp_lt (by simpa using h)
  · intro h
    rw [hafter] at h
    exact Moment.instant_lt_of_stamp_lt (by simpa using h)
  · intro v' b' e' hv' hb' he'
    obtain ⟨m', hm', hms⟩ := Value.moment?_of_stamp? (hv'.trans (Value.stamp?_of_moment? hv))
    obtain ⟨n', hn', hns⟩ := Value.moment?_of_stamp? (hb'.trans (Value.stamp?_of_moment? hb))
    obtain ⟨o', ho', hos⟩ := Value.moment?_of_stamp? (he'.trans (Value.stamp?_of_moment? he))
    refine ⟨fun k => ?_, ?_, ?_⟩
    · rw [verdict_dateBound k hm' hn', verdict_dateBound k hv hb, hms, hns]
    · rw [verdict_equal_date hm' hn', hequal, hms, hns]
    · by_cases h : n.stamp < o.stamp
      · rw [verdict_between hm' hn' ho' (by rwa [hns, hos]), verdict_between hv hb he h, hms, hns, hos]
      · rw [verdict_between_of_le hn' ho' (by rwa [hns, hos]), verdict_between_of_le hb he h]

section Dusk

open Text.CommonNames

/-- Half a millisecond before 1970 is earlier than the start of 1970, here as a clock two hours ahead shows it, and lies in the
millisecond before. -/
theorem date_checks_agree_dusk :
    ∃ v b e : Value, ∃ m n o : Moment,
      b = .str "1970-01-01T02:00:00+02:00" ∧ e = .str "1970/1/2" ∧ v.moment? = some m ∧ b.moment? = some n ∧
      e.moment? = some o ∧ m.instant = -500 ∧ n.instant = 0 ∧ n.stamp < o.stamp ∧
      (Check.dateBound .before b).verdict .date v = some true ∧
      (Check.dateBound .notBefore b).verdict .date v = some false ∧
      (Check.between b e).verdict .date v ≠ some true ∧ m.instant < n.instant := by
  let v : Value := .moment ⟨⟨1969, 12, 31, by decide⟩, ⟨23, 59, 59, 999500, by decide⟩, none⟩
  let b : Value := .str "1970-01-01T02:00:00+02:00"
  let e : Value := .str "1970/1/2"
  obtain ⟨m, hm, hmi⟩ : ∃ m, v.moment? = some m ∧ m.instant = -500 := ⟨_, rfl, by decide⟩
  obtain ⟨n, hn, hni⟩ : ∃ n, b.moment? = some n ∧ n.instant = 0 := Option.map_eq_some_iff.mp (by decide +kernel)
  obtain ⟨o, ho, hoi⟩ : ∃ o, e.moment? = some o ∧ o.instant = 86400000000 :=
    Option.map_eq_some_iff.mp (by decide +kernel)
  have hno : n.stamp < o.stamp := by simp [Moment.stamp, hni, hoi]
  have hbefore : (Check.dateBound .before b).verdict .date v = some true := by
    simp [verdict_dateBound .before hm hn, DateBound.allows, Moment.stamp, hmi, hni]
  obtain ⟨-, hnot, -, -, hbetween, hearlier, -⟩ := date_checks_agree hm hn ho
  have hbegin : (Check.dateBound .notBefore b).verdict .date v = some false := by
    rw [hnot, hbefore]
    rfl
  refine ⟨v, b, e, m, n, o, rfl, rfl, hm, hn, ho, hmi, hni, hno, hbefore, hbegin, ?_, hearlier hbefore⟩
  rw [ne_eq, hbetween hno, hbegin]
  simp

end Dusk

/-! ### Numbers -/

section Numbers

variable {v a b : Number} {x y z : ExtendedRat}

theorem admits_of_isFinite (hv : v.isFinite = true) : Primitive.number.Admits (.number v) (.number v) := by
  obtain ⟨q, hq⟩ := Number.isFinite_iff.mp hv
  exact .number v q hq

theorem admits_of_length? {p : Primitive} {w : Value} {n : Nat} (hlen : w.length? = some n) (hk : w.kind = .primitive p) :
    p.Admits w w ∧ w.measure? = (Number.int n).extended? ∧
      ∀ k, k = Bound.min ∨ k = .max → .bound k ∈ RuleKind.checksOf p := by
  cases w with
  | str s =>
    cases hk
    cases hlen
    exact ⟨.string s, rfl, by rintro k (rfl | rfl) <;> decide⟩
  | list vs =>
    cases hk
    cases hlen
    exact ⟨.list vs, rfl, by rintro k (rfl | rfl) <;> decide⟩
  | tuple vs =>
    cases hk
    cases hlen
    exact ⟨.tuple vs, rfl, by rintro k (rfl | rfl) <;> decide⟩
  | _ => cases hlen

variable [Text.CharacterNames]

/-- A bound compares the measure of what its container shows, be it the place of a number or a length. -/
theorem verdict_bound {k : Bound} {p : Primitive} {w seen : Value} (hk : .bound k ∈ RuleKind.checksOf p)
    (hw : p.Admits w seen) (hmeasure : seen.measure? = v.extended?) (ha : a.isNumber = true) :
    (Check.bound k (.number a)).verdict p w = if k.allows v a || a.isWritable then some (k.allows v a) else none := by
  refine verdict_of_admits rfl hk (by simp) (Number.isNumber_iff.mp ha) rfl hw ?_
  rw [Check.Holds, hmeasure, Bound.allows_iff]
  rfl

theorem verdict_bound_number (k : Bound) (hv : v.isFinite = true) (ha : a.isNumber = true) :
    (Check.bound k (.number a)).verdict .number (.number v) =
      if k.allows v a || a.isWritable then some (k.allows v a) else none :=
  verdict_bound (by cases k <;> decide) (admits_of_isFinite hv) rfl ha

theorem verdict_bound_eq_true_iff (k : Bound) (hv : v.isFinite = true) (ha : a.isNumber = true) :
    (Check.bound k (.number a)).verdict .number (.number v) = some true ↔ k.allows v a = true := by
  rw [verdict_bound_number k hv ha]
  cases k.allows v a <;> cases a.isWritable <;> simp

theorem verdict_bound_of_isWritable (k : Bound) (hv : v.isFinite = true) (ha : a.isNumber = true)
    (hw : a.isWritable = true) : (Check.bound k (.number a)).verdict .number (.number v) = some (k.allows v a) := by
  rw [verdict_bound_number k hv ha, hw, Bool.or_true, if_pos rfl]

theorem verdict_bound_ne_false (k : Bound) (hv : v.isFinite = true) (ha : a.isNumber = true) (hw : a.isWritable = false) :
    (Check.bound k (.number a)).verdict .number (.number v) ≠ some false := by
  rw [verdict_bound_number k hv ha, hw]
  cases k.allows v a <;> simp

theorem exists_ofTree_equal_iff (ha : a.isNumber = true) :
    (∃ d, ofTree ((Check.equal (.number a)).alone .number) = .ok d) ↔ a.isWritable = true := by
  rw [exists_ofTree_alone_iff rfl (by decide) (by simp)]
  exact and_iff_right (Number.isNumber_iff.mp ha)

theorem verdict_equal_number (hv : v.isFinite = true) (ha : a.isNumber = true) (hw : a.isWritable = true) :
    (Check.equal (.number a)).verdict .number (.number v) = some (v.eqv a) := by
  refine verdict_of_told rfl (by decide) (by simp) (Number.isNumber_iff.mp ha) hw rfl (admits_of_isFinite hv) ?_
  rw [Check.Holds, Value.Matches, Number.eqv_iff]

theorem wellFormed_range_iff (hx : a.extended? = some x) (hy : b.extended? = some y) :
    (Check.range (.number a) (.number b)).WellFormed .number ↔ x < y := by
  simp [Check.WellFormed, Value.place?, hx, hy]

theorem verdict_range_eq_true_iff (hv : v.isFinite = true) (hx : a.extended? = some x) (hy : b.extended? = some y)
    (h : x < y) : (Check.range (.number a) (.number b)).verdict .number (.number v) = some true ↔
      Bound.min.allows v a = true ∧ Bound.max.allows v b = true := by
  obtain ⟨q, hq⟩ := Number.isFinite_iff.mp hv
  have hholds : (Check.range (.number a) (.number b)).Holds (.number v) ↔
      (Bound.min.allows v a && Bound.max.allows v b) = true := by
    rw [Check.Holds, Bool.and_eq_true, Bound.allows_iff, Bound.allows_iff]
    simp [Value.place?, hx, hy, hq, Bound.Relates]
  rw [verdict_of_admits rfl (by decide) (by simp) ((wellFormed_range_iff hx hy).mpr h) rfl (admits_of_isFinite hv) hholds,
    ← Bool.and_eq_true]
  cases Bound.min.allows v a && Bound.max.allows v b <;>
    cases (Check.range (.number a) (.number b)).isTellable <;> simp

/-- The checks of numbers agree with each other exactly, and bounds of lengths with bounds of numbers. A limit that cannot be
written has no `equal` check, and its bounds reject nothing: they accept by the same comparisons, or decide nothing. -/
theorem number_checks_agree {v a b : Number} {x y : ExtendedRat} (hv : v.isFinite = true) (ha : a.extended? = some x)
    (hb : b.extended? = some y) :
    let bound k := (Check.bound k (.number a)).verdict .number (.number v)
    let equal := (Check.equal (.number a)).verdict .number (.number v)
    (a.isWritable = true →
      ([bound .less, equal, bound .more].count (some true) = 1 ∧ [bound .less, equal, bound .more].count (some false) = 2) ∧
      bound .min = (bound .less).map (!·) ∧ bound .max = (bound .more).map (!·)) ∧
    (∀ k, bound k = some true ↔ k.allows v a = true) ∧
    (bound .min = some true ↔ bound .less ≠ some true) ∧ (bound .max = some true ↔ bound .more ≠ some true) ∧
    ((∃ d, ofTree ((Check.equal (.number a)).alone .number) = .ok d) ↔ a.isWritable = true) ∧
    (a.isWritable = false → ∀ k, bound k ≠ some false) ∧
    ((∃ d, ofTree ((Check.range (.number a) (.number b)).alone .number) = .ok d) ↔ x < y) ∧
    (x < y → ((Check.range (.number a) (.number b)).verdict .number (.number v) = some true ↔
      bound .min = some true ∧ (Check.bound .max (.number b)).verdict .number (.number v) = some true)) ∧
    ∀ (w : Value) (p : Primitive) (n : Nat) (k : Bound), w.length? = some n → w.kind = .primitive p →
      k = .min ∨ k = .max →
        (Check.bound k (.number a)).verdict p w = (Check.bound k (.number a)).verdict .number (.number (.int n)) := by
  intro bound equal
  obtain ⟨q, hq⟩ := Number.isFinite_iff.mp hv
  have hnumber : a.isNumber = true := Number.isNumber_iff.mpr ⟨x, ha⟩
  have hnumber' : b.isNumber = true := Number.isNumber_iff.mpr ⟨y, hb⟩
  have haccepts : ∀ k, bound k = some true ↔ k.allows v a = true := fun k => verdict_bound_eq_true_iff k hv hnumber
  have hmin : Bound.min.allows v a = !Bound.less.allows v a := by simp [Bound.allows, Number.le, Number.lt, hq, ha]
  have hmax : Bound.max.allows v a = !Bound.more.allows v a := by simp [Bound.allows, Number.le, Number.lt, hq, ha]
  refine ⟨fun hw => ?_, haccepts, ?_, ?_, exists_ofTree_equal_iff hnumber, ?_, ?_, ?_, ?_⟩
  · have hbound : ∀ k, bound k = some (k.allows v a) := fun k => verdict_bound_of_isWritable k hv hnumber hw
    have hequal : equal = some (v.eqv a) := verdict_equal_number hv hnumber hw
    have hlt : v.lt a = true ↔ .finite q < x := by simp [Number.lt_iff, hq, ha]
    have heq : v.eqv a = true ↔ .finite q = x := by simp [Number.eqv_iff, hq, ha, @eq_comm _ x]
    have hgt : a.lt v = true ↔ x < .finite q := by simp [Number.lt_iff, hq, ha]
    refine ⟨?_, ?_, ?_⟩
    · rw [hbound, hequal, hbound]
      exact count_trichotomy hlt heq hgt
    · rw [hbound, hbound, hmin, Option.map_some]
    · rw [hbound, hbound, hmax, Option.map_some]
  · rw [haccepts, Ne, haccepts, hmin, Bool.not_eq_true', Bool.not_eq_true]
  · rw [haccepts, Ne, haccepts, hmax, Bool.not_eq_true', Bool.not_eq_true]
  · exact fun hw k => verdict_bound_ne_false k hv hnumber hw
  · rw [exists_ofTree_alone_iff rfl (by decide) (by simp), wellFormed_range_iff ha hb]
    exact and_iff_left rfl
  · intro h
    rw [verdict_range_eq_true_iff hv ha hb h, haccepts, verdict_bound_eq_true_iff .max hv hnumber']
  · intro w p n k hlen hk hbound
    obtain ⟨hadmits, hmeasure, hmem⟩ := admits_of_length? hlen hk
    rw [verdict_bound (hmem k hbound) hadmits hmeasure hnumber, verdict_bound_number k rfl hnumber]

end Numbers

section Limits

open Text.CommonNames

/-- The integer after 2 ^ 53 lies above the floating-point number 2 ^ 53, to which it would be rounded. -/
theorem number_checks_agree_odd :
    ∃ (v a b : Number) (x y : ExtendedRat),
      v = .int 9007199254740993 ∧ a = .float ⟨false, 1076, 0, by decide, by decide⟩ ∧
      b = .ratio ((18014398509481987 : Rat) / 2) ∧ v.isFinite = true ∧ a.extended? = some x ∧ b.extended? = some y ∧
      x < y ∧ (Check.bound .less (.number a)).verdict .number (.number v) = some false ∧
      (Check.bound .min (.number a)).verdict .number (.number v) = some true ∧
      ((Check.range (.number a) (.number b)).verdict .number (.number v) = some true ↔
        (Check.bound .max (.number b)).verdict .number (.number v) = some true) ∧
      (Check.bound .max (.number a)).verdict .string (.str "ab") =
        (Check.bound .max (.number a)).verdict .number (.number (.int 2)) := by
  let v : Number := .int 9007199254740993
  let a : Number := .float ⟨false, 1076, 0, by decide, by decide⟩
  let b : Number := .ratio ((18014398509481987 : Rat) / 2)
  have ha : a.extended? = some (.finite 9007199254740992) := by decide +kernel
  have hb : b.extended? = some (.finite ((18014398509481987 : Rat) / 2)) := rfl
  have hlt : ExtendedRat.finite 9007199254740992 < .finite ((18014398509481987 : Rat) / 2) :=
    (ExtendedRat.lt_iff _ _).mp (by decide +kernel)
  have hwritable : a.isWritable = true := rfl
  have hless : (Check.bound .less (.number a)).verdict .number (.number v) = some false := by
    rw [verdict_bound_of_isWritable .less rfl (Number.isNumber_iff.mpr ⟨_, ha⟩) hwritable]
    exact congrArg some (by decide +kernel)
  obtain ⟨hagree, -, -, -, -, -, -, hrange, hlength⟩ := number_checks_agree (v := v) rfl ha hb
  have hleast : (Check.bound .min (.number a)).verdict .number (.number v) = some true := by
    refine (hagree hwritable).2.1.trans ?_
    simp only [hless, Option.map_some, Bool.not_false]
  refine ⟨v, a, b, _, _, rfl, rfl, rfl, rfl, ha, hb, hlt, hless, hleast, ?_, hlength _ .string 2 .max rfl rfl (.inr rfl)⟩
  exact (hrange hlt).trans (and_iff_right hleast)

/-- The least integer without a text has no `equal` check, and is neither less nor more than itself. -/
theorem none_accepts_leastUnwritable :
    ∃ v a : Number, v = .int Decimal.leastUnwritable ∧ a = .int Decimal.leastUnwritable ∧ v.isFinite = true ∧
      a.isNumber = true ∧ (¬∃ d, ofTree ((Check.equal (.number a)).alone .number) = .ok d) ∧
      (Check.equal (.number a)).verdict .number (.number v) = none ∧
      (Check.bound .less (.number a)).verdict .number (.number v) ≠ some true ∧
      (Check.bound .more (.number a)).verdict .number (.number v) ≠ some true := by
  let a : Number := .int Decimal.leastUnwritable
  have hw : a.isWritable = false := Decimal.isWritable_leastUnwritable
  have hequal : ¬∃ d, ofTree ((Check.equal (.number a)).alone .number) = .ok d := by
    rw [exists_ofTree_equal_iff rfl, hw]
    simp
  have hself : a.lt a = false := by
    rw [Bool.eq_false_iff, Ne, Number.lt_iff]
    rintro ⟨x, y, hx, hy, h⟩
    rw [Option.some.inj (hx.symm.trans hy)] at h
    exact lt_irrefl y h
  refine ⟨a, a, rfl, rfl, rfl, rfl, hequal, verdict_eq_none hequal, ?_, ?_⟩
  · rw [Ne, verdict_bound_eq_true_iff .less rfl rfl, Bound.allows, hself]
    simp
  · rw [Ne, verdict_bound_eq_true_iff .more rfl rfl, Bound.allows, hself]
    simp

end Limits

end RuleTree
