import RuleTree.Proofs.Build.Outcome
import RuleTree.Proofs.Rule.Meaning
import RuleTree.Proofs.Rule.Places

/-!
# The grammar of rule trees

Which rule trees are well formed, as a system of rules of formation. A tree is well formed for a position: where any value may
be bound, behind a required rule, as a branch of a union, or inside a container of some kind. Nothing is said of the order in
which the conditions on a rule are looked at.
-/

namespace RuleTree

open Validator (IsMessage)

/-! ### Fields -/

/-- A value that names a moment: a date, a moment, or a text that can be read as one. -/
def Value.IsDate (v : Value) : Prop :=
  (∃ d, v = .date d) ∨ (∃ m, v = .moment m) ∨ ∃ s m, v = .str s ∧ Moment.read? s = some m

/-- What the values of a kind may be compared with. -/
def Primitive.Compares (p : Primitive) (v : Value) : Prop :=
  match p with
  | .date => v.IsDate
  | .number => ∃ x, v.place? = some x
  | _ => v.kind = .primitive p

/-- Whether the fields of a leaf inside a container are in order, the message apart. -/
def Check.WellFormed [Text.CharacterNames] (c : Check) (p : Primitive) : Prop :=
  match c with
  | .equal v => p.Compares v
  | .bound _ limit => ∃ x, limit.place? = some x
  | .range min max => ∃ low high, min.place? = some low ∧ max.place? = some high ∧ low < high
  | .pattern regex => ∃ literal q, regex = .str literal ∧ Pattern.read literal = .ok q
  | .dateBound _ e => e.IsDate
  | .between first last =>
    ∃ begins ends, first.stamp? = some begins ∧ last.stamp? = some ends ∧ begins < ends
  | .mismatch => False
  | .kindless _ _ => False

/-- A name of a property: a text that is not empty, or a whole number. -/
def Value.IsName (v : Value) : Prop := (∃ s, v = .str s ∧ s ≠ "") ∨ ∃ i, v = .number (.int i)

/-! ### Trees -/

/-- Where a tree stands. -/
inductive Position
  | value
  | wrapped
  | branch
  | inside (p : Primitive)

/-- The kinds of rules that may stand at a position. -/
def Position.kinds : Position → List RuleKind
  | .value => RuleKind.bindable
  | .wrapped => RuleKind.wrappable
  | .branch => RuleKind.values
  | .inside p => RuleKind.childrenOf p

/-- Whether a position is one where some kinds are allowed, inside a rule. -/
def Position.Governs (place : Position) (allowed : List RuleKind) (parent : Option RuleKind) : Prop :=
  (∀ k ∈ allowed, k ∈ place.kinds) ∧ ∀ p, place = .inside p → parent = some (.container p)

namespace Position

variable {p : Primitive} {allowed : List RuleKind} {parent : Option RuleKind}

theorem value_ne_inside (p : Primitive) : value ≠ inside p := by
  intro h
  cases h

theorem wrapped_ne_inside (p : Primitive) : wrapped ≠ inside p := by
  intro h
  cases h

theorem branch_ne_inside (p : Primitive) : branch ≠ inside p := by
  intro h
  cases h

theorem exists_inside {place : Position} {k : RuleKind} (h : k ∈ place.kinds) (hk : k ∉ RuleKind.bindable) :
    ∃ p, place = inside p := by
  cases place with
  | value => exact absurd h hk
  | wrapped => exact absurd (RuleKind.wrappable_bindable h) hk
  | branch => exact absurd (RuleKind.values_bindable h) hk
  | inside p => exact ⟨p, rfl⟩

theorem governs_value : value.Governs RuleKind.bindable parent :=
  ⟨fun _ hk => hk, fun p hp => absurd hp (value_ne_inside p)⟩

theorem governs_wrapped : wrapped.Governs RuleKind.wrappable parent :=
  ⟨fun _ hk => hk, fun p hp => absurd hp (wrapped_ne_inside p)⟩

theorem governs_branch : branch.Governs RuleKind.values parent :=
  ⟨fun _ hk => hk, fun p hp => absurd hp (branch_ne_inside p)⟩

theorem governs_inside (h : ∀ k ∈ allowed, k ∈ RuleKind.childrenOf p) :
    (inside p).Governs allowed (some (.container p)) := by
  refine ⟨h, ?_⟩
  intro q hq
  cases hq
  rfl

end Position

namespace Tree

/-- At most one mismatch rule stands in a row, and its message is in order. -/
def MismatchOnce (ts : List Tree) : Prop := (mismatches ts).length ≤ 1 ∧ ∀ m ∈ mismatches ts, IsMessage m

/-- The rules of formation. -/
inductive WellFormed [Text.CharacterNames] : Position → Tree → Prop
  | required {m : Value} {t : Tree} {ts : List Tree} (h : t.Comprises (.required m) ts) (hm : IsMessage m)
      (hlen : ts.length ≤ 1) (hts : ∀ s ∈ ts, WellFormed .wrapped s) : WellFormed .value t
  | wrapped {t : Tree} (h : WellFormed .wrapped t) : WellFormed .value t
  | union {t : Tree} {ts : List Tree} (h : t.Comprises .union ts) (hm : MismatchOnce ts)
      (hlen : 2 ≤ (proper ts).length) (hkinds : ((proper ts).map kind?).Nodup)
      (hts : ∀ s ∈ proper ts, WellFormed .branch s) : WellFormed .wrapped t
  | branch {t : Tree} (h : WellFormed .branch t) : WellFormed .wrapped t
  | container {p : Primitive} {t : Tree} {ts : List Tree} (h : t.Comprises (.container p) ts) (hm : MismatchOnce ts)
      (hkinds : ∀ s ∈ proper ts, ∃ k ∈ RuleKind.checksOf p, s.kind? = some k)
      (hts : ∀ s ∈ proper ts, WellFormed (.inside p) s) : WellFormed .branch t
  | any {p : Primitive} {t : Tree} {ts : List Tree} (h : t.Comprises .any ts) (hp : p ≠ .object ∧ p ≠ .array)
      (hlen : 2 ≤ ts.length) (hkinds : ∀ s ∈ ts, ∃ k ∈ RuleKind.alternativesOf p, s.kind? = some k)
      (hts : ∀ s ∈ ts, WellFormed (.inside p) s) : WellFormed (.inside p) t
  | prop {name : Value} {s t : Tree} (h : t.Comprises (.prop name) [s]) (hname : name.IsName)
      (hs : WellFormed .value s) : WellFormed (.inside .object) t
  | item {s t : Tree} (h : t.Comprises .item [s]) (hs : WellFormed .value s) : WellFormed (.inside .array) t
  | check {p : Primitive} {c : Check} {m : Value} (hc : c.WellFormed p) (hm : IsMessage m) :
      WellFormed (.inside p) (.check c m)

end Tree

end RuleTree
