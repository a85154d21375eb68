import RuleTree.Proofs.Build.Outcome

/-!
# Building leaves

For each leaf inside a container: when it has a validator, and which one. The conditions are about the fields of the leaf
alone; nothing below asks in which order they are looked at.
-/

namespace RuleTree.Validator

/-! ### Equal values -/

theorem ofEqual_date_eq_ok_iff {v m : Value} {c : Validator} :
    ofEqual v m (some (.container .date)) = .ok c ↔
      ∃ stamp, v.stamp? = some stamp ∧ IsMessage m ∧ c = .equalMoment stamp v.displayDate (givenMessage m) := by
  unfold ofEqual
  cases h : v.stamp? with
  | none => simp [fault]
  | some stamp =>
    simp only [if_true, bind_eq_ok_iff, messageOf_eq_ok_iff, pure_eq_ok_iff, Option.some.injEq]
    constructor
    · intro h'
      obtain ⟨message, ⟨hm, rfl⟩, rfl⟩ := h'
      exact ⟨stamp, rfl, hm, rfl⟩
    · intro h'
      obtain ⟨_, rfl, hm, rfl⟩ := h'
      exact ⟨_, ⟨hm, rfl⟩, rfl⟩

theorem ofEqual_eq_ok_iff {p : Primitive} {v m : Value} {c : Validator} (hp : p ≠ .date) :
    ofEqual v m (some (.container p)) = .ok c ↔
      v.kind = .primitive p ∧ (p = .number → v.isNumber = true) ∧ v.isWritable = true ∧ IsMessage m ∧
        c = .equal (.primitive p) v (givenMessage m) := by
  have hk : Kind.ofName (parentName (some (.container p))) = .primitive p := Kind.ofName_name_primitive p
  have hd : some (RuleKind.container p) ≠ some (.container .date) := by simpa using hp
  unfold ofEqual
  simp only [hk, hd, if_false, bind_eq_ok_iff, ensure_eq_ok_iff, ensureWritable_eq_ok_iff, messageOf_eq_ok_iff,
    pure_eq_ok_iff, decide_eq_true_eq, Bool.or_eq_true, ne_eq, Kind.primitive.injEq]
  constructor
  · intro h'
    obtain ⟨_, hkind, _, hn, _, hw, message, ⟨hm, rfl⟩, rfl⟩ := h'
    exact ⟨hkind, fun h => hn.resolve_left (not_not_intro h), hw, hm, rfl⟩
  · intro h'
    obtain ⟨hkind, hn, hw, hm, rfl⟩ := h'
    refine ⟨(), hkind, (), ?_, (), hw, _, ⟨hm, rfl⟩, rfl⟩
    by_cases h : p = .number
    · exact Or.inr (hn h)
    · exact Or.inl h

/-- What passes for a date is a date or a text, which can always be written. -/
theorem isWritable_of_stamp? {v : Value} {stamp : Int} (h : v.stamp? = some stamp) : v.isWritable = true := by
  cases v with
  | date d => rfl
  | moment m => rfl
  | str s => rfl
  | _ => cases h

theorem isWritable_of_ofEqual {v m : Value} {parent : Option RuleKind} {c : Validator} (h : ofEqual v m parent = .ok c) :
    v.isWritable = true := by
  unfold ofEqual at h
  split at h
  · split at h
    · next hs => exact isWritable_of_stamp? hs
    · exact absurd h fault_ne_ok
  · obtain ⟨_, -, h⟩ := bind_eq_ok_iff.mp h
    obtain ⟨_, -, h⟩ := bind_eq_ok_iff.mp h
    obtain ⟨_, hw, -⟩ := bind_eq_ok_iff.mp h
    exact ensureWritable_eq_ok_iff.mp hw

/-! ### Numbers -/

theorem subject?_container (p : Primitive) : subject? (some (.container p)) = Subject.ofPrimitive? p := rfl

theorem primitive_of_ofPrimitive? {p : Primitive} {subject : Subject} (hs : Subject.ofPrimitive? p = some subject) :
    subject.primitive = p := by
  cases p <;> cases hs <;> rfl

theorem ofBound_eq_ok_iff {b : Bound} {v m : Value} {p : Primitive} {c : Validator} :
    ofBound b v m (some (.container p)) = .ok c ↔
      ∃ limit subject, v.number? = some limit ∧ Subject.ofPrimitive? p = some subject ∧ IsMessage m ∧
        c = .bound b subject limit (givenMessage m) := by
  unfold ofBound
  rw [subject?_container]
  cases hl : v.number? with
  | none => simp [fault]
  | some limit =>
    cases hs : Subject.ofPrimitive? p with
    | none => simp [fault]
    | some subject =>
      simp only [bind_eq_ok_iff, messageOf_eq_ok_iff, pure_eq_ok_iff, Option.some.injEq]
      constructor
      · intro h'
        obtain ⟨message, ⟨hm, rfl⟩, rfl⟩ := h'
        exact ⟨limit, subject, rfl, rfl, hm, rfl⟩
      · intro h'
        obtain ⟨_, _, rfl, rfl, hm, rfl⟩ := h'
        exact ⟨_, ⟨hm, rfl⟩, rfl⟩

theorem ofRange_eq_ok_iff {min max m : Value} {c : Validator} :
    ofRange min max m = .ok c ↔
      ∃ low high, min.number? = some low ∧ max.number? = some high ∧ low.lt high = true ∧ IsMessage m ∧
        c = .range low high (givenMessage m) := by
  unfold ofRange
  cases hl : min.number? with
  | none => simp [fault]
  | some low =>
    cases hh : max.number? with
    | none => simp [fault]
    | some high =>
      simp only [bind_eq_ok_iff, ensure_eq_ok_iff, messageOf_eq_ok_iff, pure_eq_ok_iff, Option.some.injEq]
      constructor
      · intro h'
        obtain ⟨_, hlt, message, ⟨hm, rfl⟩, rfl⟩ := h'
        exact ⟨low, high, rfl, rfl, hlt, hm, rfl⟩
      · intro h'
        obtain ⟨_, _, rfl, rfl, hlt, hm, rfl⟩ := h'
        exact ⟨(), hlt, _, ⟨hm, rfl⟩, rfl⟩

/-! ### Dates -/

theorem boundary_eq_ok_iff {k : RuleKind} {field : String} {v : Value} {stamp : Int} :
    boundary k field v = .ok stamp ↔ v.stamp? = some stamp := by
  unfold boundary
  cases v.stamp? with
  | none => simp [fault]
  | some s => simp

theorem ofDateBound_eq_ok_iff {b : DateBound} {v m : Value} {c : Validator} :
    ofDateBound b v m = .ok c ↔
      ∃ stamp, v.stamp? = some stamp ∧ IsMessage m ∧ c = .dateBound b stamp v.displayDate (givenMessage m) := by
  simp only [ofDateBound, bind_eq_ok_iff, boundary_eq_ok_iff, messageOf_eq_ok_iff, pure_eq_ok_iff]
  constructor
  · intro h'
    obtain ⟨stamp, hs, message, ⟨hm, rfl⟩, rfl⟩ := h'
    exact ⟨stamp, hs, hm, rfl⟩
  · intro h'
    obtain ⟨stamp, hs, hm, rfl⟩ := h'
    exact ⟨stamp, hs, _, ⟨hm, rfl⟩, rfl⟩

def betweenDisplay (first last : Value) : String := first.displayDate ++ " and " ++ last.displayDate

theorem ofBetween_eq_ok_iff {first last m : Value} {c : Validator} :
    ofBetween first last m = .ok c ↔
      ∃ begins ends, first.stamp? = some begins ∧ last.stamp? = some ends ∧ begins < ends ∧ IsMessage m ∧
        c = .between begins ends (betweenDisplay first last) (givenMessage m) := by
  simp only [ofBetween, bind_eq_ok_iff, boundary_eq_ok_iff, ensure_eq_ok_iff, messageOf_eq_ok_iff,
    pure_eq_ok_iff, decide_eq_true_eq]
  constructor
  · intro h'
    obtain ⟨begins, hb, ends, he, _, hlt, message, ⟨hm, rfl⟩, rfl⟩ := h'
    exact ⟨begins, ends, hb, he, hlt, hm, rfl⟩
  · intro h'
    obtain ⟨begins, ends, hb, he, hlt, hm, rfl⟩ := h'
    exact ⟨begins, hb, ends, he, (), hlt, _, ⟨hm, rfl⟩, rfl⟩

/-! ### Texts -/

variable [Text.CharacterNames]

theorem ofPattern_eq_ok_iff {regex m : Value} {c : Validator} :
    ofPattern regex m = .ok c ↔
      ∃ literal p, regex = .str literal ∧ Pattern.read literal = .ok p ∧ IsMessage m ∧
        c = .pattern p literal (givenMessage m) := by
  cases regex with
  | str literal =>
    cases hp : Pattern.read literal with
    | error f =>
      by_cases hf : f.isOverflow = true
      · simp [ofPattern, hp, hf]
      · simp [ofPattern, hp, hf, fault]
    | ok p =>
      simp only [ofPattern, hp, bind_eq_ok_iff, messageOf_eq_ok_iff, pure_eq_ok_iff]
      constructor
      · intro h'
        obtain ⟨message, ⟨hm, rfl⟩, rfl⟩ := h'
        exact ⟨literal, p, rfl, hp, hm, rfl⟩
      · intro h'
        obtain ⟨_, q, hs, hq, hm, rfl⟩ := h'
        cases hs
        cases hp.symm.trans hq
        exact ⟨_, ⟨hm, rfl⟩, rfl⟩
  | _ => simp [ofPattern, fault]

/-! ### Messages -/

theorem isMessage_of_ofCheck {p : Primitive} {k : Check} {m : Value} {c : Validator}
    (hc : ofCheck k m (some (.container p)) = .ok c) : IsMessage m := by
  cases k with
  | equal v =>
    by_cases hp : p = .date
    · subst hp
      obtain ⟨_, -, hm, -⟩ := ofEqual_date_eq_ok_iff.mp hc
      exact hm
    · obtain ⟨-, -, -, hm, -⟩ := (ofEqual_eq_ok_iff hp).mp hc
      exact hm
  | bound b v =>
    obtain ⟨_, _, -, -, hm, -⟩ := ofBound_eq_ok_iff.mp hc
    exact hm
  | range min max =>
    obtain ⟨_, _, -, -, -, hm, -⟩ := ofRange_eq_ok_iff.mp hc
    exact hm
  | pattern regex =>
    obtain ⟨_, _, -, -, hm, -⟩ := ofPattern_eq_ok_iff.mp hc
    exact hm
  | dateBound b v =>
    obtain ⟨_, -, hm, -⟩ := ofDateBound_eq_ok_iff.mp hc
    exact hm
  | between first last =>
    obtain ⟨_, _, -, -, -, hm, -⟩ := ofBetween_eq_ok_iff.mp hc
    exact hm
  | mismatch => exact absurd hc fault_ne_ok
  | kindless name v => exact absurd hc fault_ne_ok

end RuleTree.Validator
