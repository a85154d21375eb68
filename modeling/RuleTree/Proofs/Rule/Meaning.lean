import RuleTree.Proofs.Number.Order
import RuleTree.Proofs.Rule.Shape
import RuleTree.Proofs.Value.Genuine

/-!
# What rule trees mean

The meaning of a rule tree as a property of values, by recursion on the tree alone: no validator is built, no value is sent to
one branch rather than another, and no error is worded. Numbers and lengths are compared by their exact places on the rational
line, dates by the whole milliseconds of their instants.
-/

namespace RuleTree

/-! ### Leaves -/

def Bound.Relates (b : Bound) (x limit : ExtendedRat) : Prop :=
  match b with
  | .min => limit ≤ x
  | .max => x ≤ limit
  | .less => x < limit
  | .more => limit < x

def DateBound.Relates (b : DateBound) (x boundary : Int) : Prop :=
  match b with
  | .before => x < boundary
  | .after => boundary < x
  | .notBefore => boundary ≤ x
  | .notAfter => x ≤ boundary

namespace Value

def place? : Value → Option ExtendedRat
  | .number n => n.extended?
  | _ => none

/-- The place of a number, or of the length of a text or a row. -/
def measure? : Value → Option ExtendedRat
  | .number n => n.extended?
  | .str s => some (.finite s.length)
  | .list vs => some (.finite vs.length)
  | .tuple vs => some (.finite vs.length)
  | _ => none

/-- Equality with an expected value: numbers by their places, dates by their milliseconds, whatever form these have in the
expected value. -/
def Matches : Value → Value → Prop
  | .bool a, .bool b => a = b
  | .number m, .number n => ∃ x, m.extended? = some x ∧ n.extended? = some x
  | .str s, .str t => s = t
  | .date d, e => e.stamp? = some d.stamp
  | .moment m, e => e.stamp? = some m.stamp
  | _, _ => False

theorem number?_iff {v : Value} {n : Number} :
    v.number? = some n ↔ v = .number n ∧ n.isNumber = true := by
  unfold number?
  split
  · next m =>
    by_cases hm : m.isNumber = true
    · simp only [hm, if_true, Option.some.injEq, Value.number.injEq]
      constructor
      · intro h
        subst h
        exact ⟨rfl, hm⟩
      · exact fun h => h.1
    · rw [if_neg hm]
      constructor
      · intro h
        cases h
      · intro h
        obtain ⟨hv, hn⟩ := h
        cases hv
        exact absurd hn hm
  · next hv =>
    constructor
    · intro h
      cases h
    · intro h
      exact absurd h.1 (hv n)

theorem place?_of_number? {v : Value} {n : Number} (h : v.number? = some n) : v.place? = n.extended? := by
  obtain ⟨rfl, -⟩ := number?_iff.mp h
  rfl

end Value

variable [Text.CharacterNames]

/-- What a leaf demands of a value. Mismatch rules demand nothing of their own. -/
def Check.Holds (c : Check) (v : Value) : Prop :=
  match c with
  | .equal e => v.Matches e
  | .bound b limit => ∃ x y, v.measure? = some x ∧ limit.place? = some y ∧ b.Relates x y
  | .range min max =>
    ∃ x low high, v.place? = some x ∧ min.place? = some low ∧ max.place? = some high ∧ low ≤ x ∧ x ≤ high
  | .pattern regex =>
    ∃ s literal p, v = .str s ∧ regex = .str literal ∧ Pattern.read literal = .ok p ∧ p.search s = true
  | .dateBound b e => ∃ x y, v.stamp? = some x ∧ e.stamp? = some y ∧ b.Relates x y
  | .between first last =>
    ∃ x low high, v.stamp? = some x ∧ first.stamp? = some low ∧ last.stamp? = some high ∧ low ≤ x ∧ x ≤ high
  | .mismatch => False
  | .kindless _ _ => False

/-! ### Trees -/

/-- What a group demands of a value, given what it means that all of its rules, or one of them, hold of one. -/
def Group.Holds (g : Group) (all one : Value → Prop) (v : Value) : Prop :=
  match g with
  | .any => one v
  | .union => v = .null ∨ one v
  | .container p => v = .null ∨ ∃ seen, p.Admits v seen ∧ all seen
  | .prop name => ∃ key es, name = key.toValue ∧ v = .map es ∧ all (Value.property key es)
  | .item => ∃ items, v.items? = some items ∧ ∀ w ∈ items, all w
  | .required _ => v ≠ .null ∧ all v
  | .kindless _ => False

namespace Tree

mutual

def Holds : Tree → Value → Prop
  | .stray _, _ => False
  | .check c _, v => c.Holds v
  | .group g _ rules, v => g.Holds (fun w => AllHold rules w) (fun w => OneHolds rules w) v
  | .unlisted g _, v => g.Holds (fun _ => True) (fun _ => False) v

/-- All rules of a row hold, mismatch rules apart. -/
def AllHold : List Tree → Value → Prop
  | [], _ => True
  | t :: ts, v => (t.isMismatch = true ∨ t.Holds v) ∧ AllHold ts v

/-- At least one rule of a row holds, and it is no mismatch rule. -/
def OneHolds : List Tree → Value → Prop
  | [], _ => False
  | t :: ts, v => (t.isMismatch = false ∧ t.Holds v) ∨ OneHolds ts v

end

theorem allHold_iff {ts : List Tree} {v : Value} : AllHold ts v ↔ ∀ t ∈ proper ts, t.Holds v := by
  induction ts with
  | nil => simp [AllHold, proper]
  | cons t ts ih =>
    rw [AllHold, ih]
    cases hm : t.isMismatch with
    | true =>
      obtain ⟨m, rfl⟩ := eq_mismatch_of_isMismatch hm
      simp [proper_mismatch]
    | false => simp [proper_cons hm]

theorem oneHolds_iff {ts : List Tree} {v : Value} : OneHolds ts v ↔ ∃ t ∈ proper ts, t.Holds v := by
  induction ts with
  | nil => simp [OneHolds, proper]
  | cons t ts ih =>
    rw [OneHolds, ih]
    cases hm : t.isMismatch with
    | true =>
      obtain ⟨m, rfl⟩ := eq_mismatch_of_isMismatch hm
      simp [proper_mismatch]
    | false => simp [proper_cons hm]

theorem holds_of_comprises {t : Tree} {g : Group} {ts : List Tree} {v : Value} (h : t.Comprises g ts) :
    t.Holds v ↔ g.Holds (fun w => ∀ s ∈ proper ts, s.Holds w) (fun w => ∃ s ∈ proper ts, s.Holds w) v := by
  cases h with
  | group row =>
    rw [Holds]
    simp only [allHold_iff, oneHolds_iff]
  | unlisted =>
    rw [Holds]
    simp [proper]

end Tree

end RuleTree
