import Mathlib.Data.List.Nodup
import RuleTree.Proofs.Build.Nodes
import RuleTree.Proofs.Rule.Grammar
import RuleTree.Proofs.Rule.Writable

/-!
# Frames

What the builder asks of a rule itself, and what of the rules inside it. A leaf has a validator if its fields are in order and
it can be shown, and a group if its frame is in order and each of its children has a validator where it stands.
-/

namespace RuleTree

/-! ### Fields -/

theorem Value.isDate_iff {v : Value} : v.IsDate ↔ ∃ stamp, v.stamp? = some stamp := by
  unfold IsDate
  cases v with
  | date d =>
    have hd : (Value.date d).stamp? = some d.stamp := stamp?_date d
    exact iff_of_true (.inl ⟨d, rfl⟩) ⟨d.stamp, hd⟩
  | moment m => exact iff_of_true (.inr (.inl ⟨m, rfl⟩)) ⟨m.withZone.stamp, rfl⟩
  | str s => simp [stamp?, moment?]
  | _ => simp [stamp?, moment?]

theorem Value.place?_eq_some_iff {v : Value} {x : ExtendedRat} :
    v.place? = some x ↔ ∃ n, v.number? = some n ∧ n.extended? = some x := by
  cases v with
  | number n =>
    cases hx : n.extended? with
    | none => simp [place?, number?, Number.isNumber, hx]
    | some y => simp [place?, number?, Number.isNumber, hx]
  | _ => simp [place?, number?]

theorem Value.exists_place_iff {v : Value} : (∃ x, v.place? = some x) ↔ ∃ n, v.number? = some n := by
  cases v with
  | number n =>
    cases hx : n.extended? with
    | none => simp [place?, number?, Number.isNumber, hx]
    | some y => simp [place?, number?, Number.isNumber, hx]
  | _ => simp [place?, number?]

namespace Validator

section Fields

variable {p : Primitive} {m : Value}

theorem ofEqual_isOk_iff {v : Value} :
    (∃ c, ofEqual v m (some (.container p)) = .ok c) ↔ (p.Compares v ∧ v.isWritable = true) ∧ IsMessage m := by
  by_cases hp : p = .date
  · subst hp
    simp only [ofEqual_date_eq_ok_iff, Primitive.Compares, Value.isDate_iff]
    constructor
    · intro h'
      obtain ⟨_, stamp, hs, hm, -⟩ := h'
      exact ⟨⟨⟨stamp, hs⟩, isWritable_of_stamp? hs⟩, hm⟩
    · intro h'
      obtain ⟨⟨⟨stamp, hs⟩, -⟩, hm⟩ := h'
      exact ⟨_, stamp, hs, hm, rfl⟩
  · have hcompares : p.Compares v ↔ v.kind = .primitive p ∧ (p = .number → v.isNumber = true) := by
      cases p with
      | date => exact absurd rfl hp
      | number =>
        have hnumber : v.isNumber = true ↔ ∃ n, v.number? = some n := Option.isSome_iff_exists
        rw [Primitive.Compares, Value.exists_place_iff, hnumber]
        constructor
        · intro h
          obtain ⟨n, hn⟩ := h
          obtain ⟨rfl, -⟩ := Value.number?_iff.mp hn
          exact ⟨rfl, fun _ => ⟨n, hn⟩⟩
        · exact fun h => h.2 rfl
      | _ => simp [Primitive.Compares]
    simp only [ofEqual_eq_ok_iff hp, hcompares]
    constructor
    · intro h'
      obtain ⟨_, hk, hn, hw, hm, -⟩ := h'
      exact ⟨⟨⟨hk, hn⟩, hw⟩, hm⟩
    · intro h'
      obtain ⟨⟨⟨hk, hn⟩, hw⟩, hm⟩ := h'
      exact ⟨_, hk, hn, hw, hm, rfl⟩

theorem exists_subject_of_bound_mem {b : Bound} (h : .bound b ∈ RuleKind.childrenOf p) :
    ∃ subject, Subject.ofPrimitive? p = some subject := by
  cases p with
  | string => exact ⟨_, rfl⟩
  | number => exact ⟨_, rfl⟩
  | array => exact ⟨_, rfl⟩
  | _ => simp [RuleKind.childrenOf, RuleKind.checksOf] at h

theorem ofRange_isOk_iff {min max : Value} :
    (∃ c, ofRange min max m = .ok c) ↔
      (∃ low high, min.place? = some low ∧ max.place? = some high ∧ low < high) ∧ IsMessage m := by
  simp only [ofRange_eq_ok_iff, Number.lt_iff, Value.place?_eq_some_iff]
  constructor
  · intro h'
    obtain ⟨_, low, high, hl, hh, ⟨x, y, hx, hy, hlt⟩, hm, -⟩ := h'
    exact ⟨⟨x, y, ⟨low, hl, hx⟩, ⟨high, hh, hy⟩, hlt⟩, hm⟩
  · intro h'
    obtain ⟨⟨x, y, ⟨low, hl, hx⟩, ⟨high, hh, hy⟩, hlt⟩, hm⟩ := h'
    exact ⟨_, low, high, hl, hh, ⟨x, y, hx, hy, hlt⟩, hm, rfl⟩

theorem propName_isOk_iff {v : Value} : (∃ key, propName v = .ok key) ↔ v.IsName := by
  simp only [propName_eq_ok_iff, Value.IsName]
  constructor
  · intro h'
    obtain ⟨key, rfl, hkey⟩ := h'
    cases key with
    | text s => exact .inl ⟨s, rfl, fun h => hkey (congrArg Key.text h)⟩
    | index i => exact .inr ⟨i, rfl⟩
  · intro h'
    obtain ⟨s, rfl, hs⟩ | ⟨i, rfl⟩ := h'
    · exact ⟨.text s, rfl, fun h => hs (Key.text.inj h)⟩
    · exact ⟨.index i, rfl, by simp⟩

variable [Text.CharacterNames]

/-- A leaf that may stand inside a container has a validator there exactly if its fields are in order and it can be shown. -/
theorem ofCheck_isOk_iff {c : Check} {k : RuleKind} (hk : c.kind? = some k) (ha : k ∈ RuleKind.childrenOf p) :
    (∃ d, ofCheck c m (some (.container p)) = .ok d) ↔ (c.WellFormed p ∧ c.isShowable = true) ∧ IsMessage m := by
  cases c with
  | equal v => exact ofEqual_isOk_iff
  | bound b limit =>
    cases hk
    obtain ⟨subject, hs⟩ := exists_subject_of_bound_mem ha
    simp only [ofCheck, ofBound_eq_ok_iff, Check.WellFormed, Value.exists_place_iff, Check.isShowable, and_true]
    constructor
    · intro h'
      obtain ⟨_, n, _, hn, -, hm, -⟩ := h'
      exact ⟨⟨n, hn⟩, hm⟩
    · intro h'
      obtain ⟨⟨n, hn⟩, hm⟩ := h'
      exact ⟨_, n, subject, hn, hs, hm, rfl⟩
  | range min max =>
    simp only [Check.isShowable, and_true]
    exact ofRange_isOk_iff
  | pattern regex =>
    simp only [ofCheck, ofPattern_eq_ok_iff, Check.WellFormed, Check.isShowable, and_true]
    constructor
    · intro h'
      obtain ⟨_, literal, q, hr, hq, hm, -⟩ := h'
      exact ⟨⟨literal, q, hr, hq⟩, hm⟩
    · intro h'
      obtain ⟨⟨literal, q, hr, hq⟩, hm⟩ := h'
      exact ⟨_, literal, q, hr, hq, hm, rfl⟩
  | dateBound b e =>
    simp only [ofCheck, ofDateBound_eq_ok_iff, Check.WellFormed, Value.isDate_iff, Check.isShowable, and_true]
    constructor
    · intro h'
      obtain ⟨_, stamp, hs, hm, -⟩ := h'
      exact ⟨⟨stamp, hs⟩, hm⟩
    · intro h'
      obtain ⟨⟨stamp, hs⟩, hm⟩ := h'
      exact ⟨_, stamp, hs, hm, rfl⟩
  | between first last =>
    simp only [ofCheck, ofBetween_eq_ok_iff, Check.WellFormed, Check.isShowable, and_true]
    constructor
    · intro h'
      obtain ⟨_, begins, ends, hb, he, hlt, hm, -⟩ := h'
      exact ⟨⟨begins, ends, hb, he, hlt⟩, hm⟩
    · intro h'
      obtain ⟨⟨begins, ends, hb, he, hlt⟩, hm⟩ := h'
      exact ⟨_, begins, ends, hb, he, hlt, hm, rfl⟩
  | mismatch => simp [ofCheck, fault_ne_ok, Check.WellFormed]
  | kindless name v => simp [ofCheck, fault_ne_ok, Check.WellFormed]

end Fields

/-! ### Rows of children -/

theorem mismatchBuilds_exists_iff {allowed : List RuleKind} {ts : List Tree} (ha : .mismatch ∈ allowed) :
    (∃ message, MismatchBuilds allowed false (Tree.mismatches ts) message) ↔ Tree.MismatchOnce ts := by
  unfold Tree.MismatchOnce
  match Tree.mismatches ts with
  | [] => simp [MismatchBuilds]
  | [m] => simp [MismatchBuilds, mismatchMessage_eq_ok_iff, ha]
  | _ :: _ :: _ => simp [MismatchBuilds]

theorem hasAlternatives_iff {p : Primitive} : RuleKind.hasAlternatives p = true ↔ p ≠ .object ∧ p ≠ .array := by
  cases p <;> decide

variable [Text.CharacterNames]

theorem kinds_of_branches {ts : List Tree} {branches : List (Primitive × Validator)}
    (h : List.Forall₂ BuildsBranch ts branches) :
    ts.map Tree.kind? = (branches.map Prod.fst).map fun p => some (.container p) := by
  induction h with
  | nil => rfl
  | cons hb _ ih => rw [List.map_cons, List.map_cons, List.map_cons, ih, hb.1]

theorem nodup_kinds_iff {ts : List Tree} {branches : List (Primitive × Validator)}
    (h : List.Forall₂ BuildsBranch ts branches) :
    (ts.map Tree.kind?).Nodup ↔ (branches.map Prod.fst).Nodup := by
  have hinj : Function.Injective fun p => some (RuleKind.container p) := by
    intro p q hpq
    simpa using hpq
  rw [kinds_of_branches h, List.nodup_map_iff hinj]

/-! ### Groups -/

section Groups

variable {allowed : List RuleKind} {parent : Option RuleKind} {t : Tree} {ts : List Tree}

theorem builds_container_iff {p : Primitive} (h : t.Comprises (.container p) ts) :
    (∃ c, ofNode allowed parent t = .ok c) ↔ (.container p ∈ allowed ∧ Tree.MismatchOnce ts) ∧
      ∀ s ∈ Tree.proper ts, ∃ d, ofNode (RuleKind.childrenOf p) (some (.container p)) s = .ok d := by
  simp only [ofNode_container_eq_ok_iff h]
  constructor
  · intro h'
    obtain ⟨_, ha, checks, message, hts, hms, -⟩ := h'
    exact ⟨⟨ha, (mismatchBuilds_exists_iff List.mem_cons_self).mp ⟨message, hms⟩⟩, exists_forall₂_iff.mp ⟨checks, hts⟩⟩
  · intro h'
    obtain ⟨⟨ha, hm⟩, hchildren⟩ := h'
    obtain ⟨checks, hts⟩ := exists_forall₂_iff.mpr hchildren
    obtain ⟨message, hms⟩ := (mismatchBuilds_exists_iff List.mem_cons_self).mpr hm
    exact ⟨_, ha, checks, message, hts, hms, rfl⟩

theorem exists_branch_iff : (∃ b, BuildsBranch t b) ↔ ∃ d, ofNode RuleKind.values (some .union) t = .ok d := by
  constructor
  · intro h'
    obtain ⟨b, hb⟩ := h'
    exact ⟨b.2, hb.2⟩
  · intro h'
    obtain ⟨d, hd⟩ := h'
    obtain ⟨k, hk, hkind⟩ := kind?_of_ofNode_eq_ok hd
    obtain ⟨p, rfl⟩ := RuleKind.mem_values.mp hk
    exact ⟨(p, d), hkind, hd⟩

theorem builds_union_iff (h : t.Comprises .union ts) :
    (∃ c, ofNode allowed parent t = .ok c) ↔
      (.union ∈ allowed ∧ Tree.MismatchOnce ts ∧ 2 ≤ (Tree.proper ts).length ∧ ((Tree.proper ts).map Tree.kind?).Nodup) ∧
        ∀ s ∈ Tree.proper ts, ∃ d, ofNode RuleKind.values (some .union) s = .ok d := by
  simp only [ofNode_union_eq_ok_iff h, ← exists_branch_iff]
  constructor
  · intro h'
    obtain ⟨_, ha, branches, message, hts, hnodup, hms, hlen, -⟩ := h'
    have hm := (mismatchBuilds_exists_iff List.mem_cons_self).mp ⟨message, hms⟩
    rw [← hts.length_eq] at hlen
    exact ⟨⟨ha, hm, hlen, (nodup_kinds_iff hts).mpr hnodup⟩, exists_forall₂_iff.mp ⟨branches, hts⟩⟩
  · intro h'
    obtain ⟨⟨ha, hm, hlen, hnodup⟩, hbranches⟩ := h'
    obtain ⟨branches, hts⟩ := exists_forall₂_iff.mpr hbranches
    obtain ⟨message, hms⟩ := (mismatchBuilds_exists_iff List.mem_cons_self).mpr hm
    rw [hts.length_eq] at hlen
    exact ⟨_, ha, branches, message, hts, (nodup_kinds_iff hts).mp hnodup, hms, hlen, rfl⟩

theorem builds_any_iff (h : t.Comprises .any ts) :
    (∃ c, ofNode allowed parent t = .ok c) ↔ .any ∈ allowed ∧ ∃ p, parent = some (.container p) ∧
      (p ≠ .object ∧ p ≠ .array) ∧ Tree.mismatches ts = [] ∧ 2 ≤ ts.length ∧
        ∀ s ∈ ts, ∃ d, ofNode (RuleKind.alternativesOf p) (some (.container p)) s = .ok d := by
  simp only [ofNode_any_eq_ok_iff h, ← hasAlternatives_iff]
  constructor
  · intro h'
    obtain ⟨_, ha, p, alternatives, hparent, hp, hms, hts, hlen, -⟩ := h'
    rw [← hts.length_eq] at hlen
    exact ⟨ha, p, hparent, hp, hms, hlen, exists_forall₂_iff.mp ⟨alternatives, hts⟩⟩
  · intro h'
    obtain ⟨ha, p, hparent, hp, hms, hlen, hchildren⟩ := h'
    obtain ⟨alternatives, hts⟩ := exists_forall₂_iff.mpr hchildren
    rw [hts.length_eq] at hlen
    exact ⟨_, ha, p, alternatives, hparent, hp, hms, hts, hlen, rfl⟩

theorem builds_prop_iff {name : Value} (h : t.Comprises (.prop name) ts) :
    (∃ c, ofNode allowed parent t = .ok c) ↔ (.prop ∈ allowed ∧ ts.length = 1 ∧ name.IsName) ∧
      ∀ s ∈ ts, ∃ d, ofNode RuleKind.bindable (some .prop) s = .ok d := by
  simp only [ofNode_prop_eq_ok_iff h, ← propName_isOk_iff, List.length_eq_one_iff]
  constructor
  · intro h'
    obtain ⟨_, ha, s, key, inner, rfl, hkey, hs, -⟩ := h'
    exact ⟨⟨ha, ⟨s, rfl⟩, key, hkey⟩, List.forall_mem_singleton.mpr ⟨inner, hs⟩⟩
  · intro h'
    obtain ⟨⟨ha, ⟨s, rfl⟩, key, hkey⟩, hchild⟩ := h'
    obtain ⟨inner, hs⟩ := List.forall_mem_singleton.mp hchild
    exact ⟨_, ha, s, key, inner, rfl, hkey, hs, rfl⟩

theorem builds_item_iff (h : t.Comprises .item ts) :
    (∃ c, ofNode allowed parent t = .ok c) ↔ (.item ∈ allowed ∧ ts.length = 1) ∧
      ∀ s ∈ ts, ∃ d, ofNode RuleKind.bindable (some .item) s = .ok d := by
  simp only [ofNode_item_eq_ok_iff h, List.length_eq_one_iff]
  constructor
  · intro h'
    obtain ⟨_, ha, s, inner, rfl, hs, -⟩ := h'
    exact ⟨⟨ha, s, rfl⟩, List.forall_mem_singleton.mpr ⟨inner, hs⟩⟩
  · intro h'
    obtain ⟨⟨ha, s, rfl⟩, hchild⟩ := h'
    obtain ⟨inner, hs⟩ := List.forall_mem_singleton.mp hchild
    exact ⟨_, ha, s, inner, rfl, hs, rfl⟩

theorem builds_required_iff {m : Value} (h : t.Comprises (.required m) ts) :
    (∃ c, ofNode allowed parent t = .ok c) ↔ (.required ∈ allowed ∧ ts.length ≤ 1 ∧ IsMessage m) ∧
      ∀ s ∈ ts, ∃ d, ofNode RuleKind.wrappable (some .required) s = .ok d := by
  simp only [ofNode_required_eq_ok_iff h]
  constructor
  · intro h'
    obtain ⟨_, ha, hm, ⟨rfl, -⟩ | ⟨s, inner, rfl, hs, -⟩⟩ := h'
    · exact ⟨⟨ha, Nat.zero_le 1, hm⟩, List.forall_mem_nil _⟩
    · exact ⟨⟨ha, Nat.le_refl 1, hm⟩, List.forall_mem_singleton.mpr ⟨inner, hs⟩⟩
  · intro h'
    obtain ⟨⟨ha, hlen, hm⟩, hchildren⟩ := h'
    cases ts with
    | nil => exact ⟨_, ha, hm, .inl ⟨rfl, rfl⟩⟩
    | cons s rest =>
      have hnil : rest = [] := by
        rw [List.length_cons] at hlen
        exact List.eq_nil_of_length_eq_zero (by omega)
      subst hnil
      obtain ⟨inner, hs⟩ := List.forall_mem_singleton.mp hchildren
      exact ⟨_, ha, hm, .inr ⟨s, inner, rfl, hs, rfl⟩⟩

theorem builds_check_iff {k : Check} {m : Value} :
    (∃ c, ofNode allowed parent (.check k m) = .ok c) ↔
      (∃ j ∈ allowed, k.kind? = some j) ∧ ∃ c, ofCheck k m parent = .ok c := by
  simp only [ofNode_check_eq_ok_iff, exists_and_left]

end Groups

end Validator

/-! ### Frames of groups -/

namespace Group

/-- The children of a group that demand something themselves. -/
def demands : Group → List Tree → List Tree
  | .container _, ts => Tree.proper ts
  | .union, ts => Tree.proper ts
  | _, ts => ts

theorem mem_demands {g : Group} {t : Tree} {ts : List Tree} (ht : t ∈ ts) (hm : t.isMismatch = false) : t ∈ g.demands ts := by
  cases g with
  | container p => exact Tree.mem_proper.mpr ⟨ht, hm⟩
  | union => exact Tree.mem_proper.mpr ⟨ht, hm⟩
  | _ => exact ht

/-- The kinds that may stand inside a group. -/
def allows (parent : Option RuleKind) : Group → List RuleKind
  | .container p => RuleKind.childrenOf p
  | .union => RuleKind.values
  | .any =>
    match parent with
    | some (.container p) => RuleKind.alternativesOf p
    | _ => []
  | .required _ => RuleKind.wrappable
  | _ => RuleKind.bindable

/-- The rule inside which the children of a group stand. Alternatives stand inside the rule around them. -/
def encloses (parent : Option RuleKind) : Group → Option RuleKind
  | .any => parent
  | g => g.kind?

/-- Whether a group is in order at its place, all that is asked of its children one by one apart. -/
def Frame (allowed : List RuleKind) (parent : Option RuleKind) (g : Group) (ts : List Tree) : Prop :=
  match g with
  | .container p => .container p ∈ allowed ∧ Tree.MismatchOnce ts
  | .union =>
    .union ∈ allowed ∧ Tree.MismatchOnce ts ∧ 2 ≤ (Tree.proper ts).length ∧ ((Tree.proper ts).map Tree.kind?).Nodup
  | .any =>
    .any ∈ allowed ∧ (∃ p, parent = some (.container p) ∧ p ≠ .object ∧ p ≠ .array) ∧ Tree.mismatches ts = [] ∧
      2 ≤ ts.length
  | .prop name => .prop ∈ allowed ∧ ts.length = 1 ∧ name.IsName
  | .item => .item ∈ allowed ∧ ts.length = 1
  | .required m => .required ∈ allowed ∧ ts.length ≤ 1 ∧ Validator.IsMessage m
  | .kindless _ => False

section Frames

variable {allowed : List RuleKind} {parent : Option RuleKind} {g : Group} {t : Tree} {ts : List Tree}

/-- Where the children of a group in order stand. -/
theorem governs_of_frame (h : g.Frame allowed parent ts) :
    ∃ place : Position, place.Governs (g.allows parent) (g.encloses parent) := by
  cases g with
  | container p => exact ⟨_, Position.governs_inside fun _ hk => hk⟩
  | union => exact ⟨_, Position.governs_branch⟩
  | any =>
    obtain ⟨-, ⟨p, rfl, -⟩, -⟩ := h
    exact ⟨_, Position.governs_inside fun _ hk => RuleKind.alternatives_children hk⟩
  | prop name => exact ⟨_, Position.governs_value⟩
  | item => exact ⟨_, Position.governs_value⟩
  | required m => exact ⟨_, Position.governs_wrapped⟩
  | kindless name => exact h.elim

variable [Text.CharacterNames]

theorem builds_iff (h : t.Comprises g ts) : (∃ c, Validator.ofNode allowed parent t = .ok c) ↔ g.Frame allowed parent ts ∧
    ∀ s ∈ g.demands ts, ∃ d, Validator.ofNode (g.allows parent) (g.encloses parent) s = .ok d := by
  cases g with
  | container p => exact Validator.builds_container_iff h
  | union => exact Validator.builds_union_iff h
  | any =>
    rw [Validator.builds_any_iff h]
    constructor
    · intro h'
      obtain ⟨ha, p, rfl, hp, hms, hlen, hchildren⟩ := h'
      exact ⟨⟨ha, ⟨p, rfl, hp⟩, hms, hlen⟩, hchildren⟩
    · intro h'
      obtain ⟨⟨ha, ⟨p, rfl, hp⟩, hms, hlen⟩, hchildren⟩ := h'
      exact ⟨ha, p, rfl, hp, hms, hlen, hchildren⟩
  | prop name => exact Validator.builds_prop_iff h
  | item => exact Validator.builds_item_iff h
  | required m => exact Validator.builds_required_iff h
  | kindless name =>
    refine iff_of_false ?_ fun h' => h'.1.elim
    intro h'
    obtain ⟨c, hc⟩ := h'
    exact Validator.ofNode_kindless_ne_ok h hc

end Frames

end Group

end RuleTree
