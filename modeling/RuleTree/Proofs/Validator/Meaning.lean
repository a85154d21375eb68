import RuleTree.Proofs.Build.Nodes
import RuleTree.Proofs.Number.Decimal
import RuleTree.Proofs.Rule.Stumbling
import RuleTree.Proofs.Validator.Accepts
import RuleTree.Proofs.Validator.Operands
import RuleTree.Proofs.Validator.Rejects
import RuleTree.Rule.Build
import RuleTree.Text.CommonNames

/-!
# Acceptance is meaning

The validator of a rule tree accepts exactly the genuine values that the tree means and on which it does not stumble, and
rejects those that the tree does not mean and on which it does not stumble. The proof follows the tree: a leaf is asked only
about values of the kind around it, a container shows its checks the date that a text names, and the branch to which a union
sends a value is the only kind of branch that could take it.
-/

namespace RuleTree

/-! ### Constraints -/

theorem Bound.allows_iff {b : Bound} {x limit : Number} :
    b.allows x limit = true ↔ ∃ q r, x.extended? = some q ∧ limit.extended? = some r ∧ b.Relates q r := by
  cases b with
  | min =>
    rw [allows, Number.le_iff, exists_comm]
    simp only [Relates, and_left_comm]
  | max => exact Number.le_iff
  | less => exact Number.lt_iff
  | more =>
    rw [allows, Number.lt_iff, exists_comm]
    simp only [Relates, and_left_comm]

theorem DateBound.allows_iff {b : DateBound} {x boundary : Int} :
    b.allows x boundary = true ↔ b.Relates x boundary := by
  cases b with
  | before => exact decide_eq_true_iff
  | after => exact decide_eq_true_iff
  | notBefore => exact decide_eq_true_iff
  | notAfter => exact decide_eq_true_iff

namespace Validator

/-! ### Leaves -/

section Leaves

variable {p : Primitive} {w v m : Value} {d : Validator}

theorem eqv_iff_matches {e : Value} (hv : p.Admits w v) (hp : .equal ∈ RuleKind.checksOf p) (hd : p ≠ .date)
    (hk : e.kind = .primitive p) (hn : p = .number → e.isNumber = true) : v.eqv e = true ↔ v.Matches e := by
  cases hv with
  | string s =>
    cases e with
    | str t => simp [Value.eqv, Value.eqvAtom, Value.Matches]
    | foreign n => simp [Value.eqv, Value.eqvAtom, Value.asNumber?, Value.Matches]
    | _ => cases hk
  | number n q hq =>
    cases e with
    | number l => simp [Value.eqv, Value.eqvAtom, Value.asNumber?, Value.Matches, Number.eqv_iff]
    | foreign l => cases hn rfl
    | _ => cases hk
  | boolean b =>
    cases e with
    | bool c => cases b <;> cases c <;> simp [Value.eqv, Value.eqvAtom, Value.asNumber?, Value.Matches, Number.eqv_iff,
        Number.extended?]
    | foreign n => simp [Value.eqv, Value.eqvAtom, Value.asNumber?, Value.Matches]
    | _ => cases hk
  | object es => simp [RuleKind.checksOf] at hp
  | list vs => simp [RuleKind.checksOf] at hp
  | tuple vs => simp [RuleKind.checksOf] at hp
  | _ => exact absurd rfl hd

theorem kind_of_admits (hv : p.Admits w v) : v.kind = .primitive p := by
  cases hv <;> rfl

theorem number?_of_extended? {n : Number} {x : ExtendedRat} (h : n.extended? = some x) :
    (Value.number n).number? = some n :=
  Value.number?_iff.mpr ⟨rfl, Number.isNumber_iff.mpr ⟨x, h⟩⟩

theorem measure?_of_admits {subject : Subject} (hs : Subject.ofPrimitive? p = some subject) (hv : p.Admits w v) :
    ∃ x, subject.measure? v = some x ∧ x.extended? = v.measure? := by
  cases hv with
  | number n q hq =>
    cases hs
    exact ⟨n, number?_of_extended? hq, rfl⟩
  | string s =>
    cases hs
    exact ⟨.int s.length, rfl, by simp [Number.extended?, Value.measure?]⟩
  | list vs =>
    cases hs
    exact ⟨.int vs.length, rfl, by simp [Number.extended?, Value.measure?]⟩
  | tuple vs =>
    cases hs
    exact ⟨.int vs.length, rfl, by simp [Number.extended?, Value.measure?]⟩
  | _ => cases hs

theorem stampHolds_iff {holds : Int → Bool} (hv : Primitive.date.Admits w v) :
    stampHolds v holds = true ↔ ∃ x, v.stamp? = some x ∧ holds x = true := by
  have hs : ∃ x, v.stamp? = some x := by
    cases hv with
    | date d => exact ⟨d.stamp, Value.stamp?_date d⟩
    | moment n => exact ⟨n.withZone.stamp, rfl⟩
    | written s n hm => exact ⟨n.withZone.stamp, rfl⟩
  obtain ⟨x, hx⟩ := hs
  simp [stampHolds, kind_of_admits hv, hx]

theorem date_of_dateBound_mem {b : DateBound} (hp : .dateBound b ∈ RuleKind.checksOf p) : p = .date := by
  cases p with
  | date => rfl
  | _ => simp [RuleKind.checksOf] at hp

theorem date_of_between_mem (hp : .between ∈ RuleKind.checksOf p) : p = .date := by
  cases p with
  | date => rfl
  | _ => simp [RuleKind.checksOf] at hp

variable [Text.CharacterNames]

theorem accepts_ofEqual_iff {e : Value} (hd : ofEqual e m (some (.container p)) = .ok d)
    (hp : .equal ∈ RuleKind.checksOf p) (hv : p.Admits w v) : d.accepts v = true ↔ (Check.equal e).Holds v := by
  by_cases hdate : p = .date
  · subst hdate
    obtain ⟨stamp, hs, -, rfl⟩ := ofEqual_date_eq_ok_iff.mp hd
    have hmatch : v.Matches e ↔ v.stamp? = some stamp := by
      cases hv with
      | date d =>
        rw [Value.stamp?_date, Value.Matches, hs]
        exact eq_comm
      | moment n =>
        rw [Value.Matches, hs]
        exact eq_comm
      | written s n hm =>
        rw [Value.Matches, hs]
        exact eq_comm
    rw [accepts_equalMoment, Check.Holds, hmatch, kind_of_admits hv]
    simp
  · obtain ⟨hk, hn, -, -, rfl⟩ := (ofEqual_eq_ok_iff hdate).mp hd
    rw [accepts_equal, Check.Holds, ← eqv_iff_matches hv hp hdate hk hn, kind_of_admits hv]
    simp

theorem accepts_ofBound_iff {b : Bound} {limit : Value} (hd : ofBound b limit m (some (.container p)) = .ok d)
    (hv : p.Admits w v) : d.accepts v = true ↔ (Check.bound b limit).Holds v := by
  obtain ⟨n, subject, hl, hs, -, rfl⟩ := ofBound_eq_ok_iff.mp hd
  obtain ⟨x, hx, hplace⟩ := measure?_of_admits hs hv
  have hk : v.kind = .primitive subject.primitive := by rw [kind_of_admits hv, primitive_of_ofPrimitive? hs]
  rw [accepts_bound, Check.Holds, hx, hk, ← hplace, Value.place?_of_number? hl]
  simpa using Bound.allows_iff

theorem accepts_ofRange_iff {min max : Value} (hd : ofRange min max m = .ok d) (hp : .range ∈ RuleKind.checksOf p)
    (hv : p.Admits w v) : d.accepts v = true ↔ (Check.range min max).Holds v := by
  obtain ⟨low, high, hl, hh, -, -, rfl⟩ := ofRange_eq_ok_iff.mp hd
  cases hv with
  | number n q hq =>
    rw [accepts_range, Check.Holds, Value.place?_of_number? hl, Value.place?_of_number? hh,
      number?_of_extended? hq]
    simp only [Value.kind, bne_self_eq_false, Bool.false_or, Option.any_some, Bool.and_eq_true, Number.le_iff,
      Value.place?]
    constructor
    · intro h
      obtain ⟨⟨x, y, hx, hy, hxy⟩, y', z, hy', hz, hyz⟩ := h
      cases hy.symm.trans hy'
      exact ⟨y, x, z, hy, hx, hz, hxy, hyz⟩
    · intro h
      obtain ⟨y, x, z, hy, hx, hz, hxy, hyz⟩ := h
      exact ⟨⟨x, y, hx, hy, hxy⟩, y, z, hy, hz, hyz⟩
  | _ => simp [RuleKind.checksOf] at hp

theorem accepts_ofPattern_iff {regex : Value} (hd : ofPattern regex m = .ok d)
    (hp : .pattern ∈ RuleKind.checksOf p) (hv : p.Admits w v) :
    d.accepts v = true ↔ (Check.pattern regex).Holds v := by
  obtain ⟨literal, q, rfl, hq, -, rfl⟩ := ofPattern_eq_ok_iff.mp hd
  cases hv with
  | string s =>
    rw [accepts_pattern, Check.Holds]
    constructor
    · intro h
      exact ⟨s, literal, q, rfl, rfl, hq, h⟩
    · intro h
      obtain ⟨_, _, q', hs, hl, hq', h⟩ := h
      cases hs
      cases hl
      cases hq.symm.trans hq'
      exact h
  | _ => simp [RuleKind.checksOf] at hp

theorem accepts_ofDateBound_iff {b : DateBound} {e : Value} (hd : ofDateBound b e m = .ok d)
    (hp : .dateBound b ∈ RuleKind.checksOf p) (hv : p.Admits w v) :
    d.accepts v = true ↔ (Check.dateBound b e).Holds v := by
  obtain ⟨stamp, hs, -, rfl⟩ := ofDateBound_eq_ok_iff.mp hd
  obtain rfl := date_of_dateBound_mem hp
  rw [accepts_dateBound, stampHolds_iff hv, Check.Holds, hs]
  simp [DateBound.allows_iff]

theorem accepts_ofBetween_iff {first last : Value} (hd : ofBetween first last m = .ok d)
    (hp : .between ∈ RuleKind.checksOf p) (hv : p.Admits w v) :
    d.accepts v = true ↔ (Check.between first last).Holds v := by
  obtain ⟨begins, ends, hb, he, -, -, rfl⟩ := ofBetween_eq_ok_iff.mp hd
  obtain rfl := date_of_between_mem hp
  rw [accepts_between, stampHolds_iff hv, Check.Holds, hb, he]
  simp

/-- A leaf accepts, among the values that its container takes, those of which it holds. -/
theorem accepts_ofCheck_iff {k : Check} {j : RuleKind} (hk : k.kind? = some j)
    (hd : ofCheck k m (some (.container p)) = .ok d) (hj : j ∈ RuleKind.checksOf p) (hv : p.Admits w v) :
    d.accepts v = true ↔ k.Holds v := by
  cases k with
  | equal e =>
    cases hk
    exact accepts_ofEqual_iff hd hj hv
  | bound b limit => exact accepts_ofBound_iff hd hv
  | range min max =>
    cases hk
    exact accepts_ofRange_iff hd hj hv
  | pattern regex =>
    cases hk
    exact accepts_ofPattern_iff hd hj hv
  | dateBound b e =>
    cases hk
    exact accepts_ofDateBound_iff hd hj hv
  | between first last =>
    cases hk
    exact accepts_ofBetween_iff hd hj hv
  | mismatch => exact absurd hd fault_ne_ok
  | kindless name v => exact absurd hd fault_ne_ok

end Leaves

/-! ### Verdicts -/

/-- What a verdict says of a value: an acceptance that it is meant, a rejection that it is not, and both that nothing has been
stumbled over. -/
def Says (r : Verdict) (holds stumbles : Prop) : Prop :=
  match r with
  | .ok _ => holds ∧ ¬stumbles
  | .error (.invalid _) => ¬holds ∧ ¬stumbles
  | .error .unwritable => stumbles

section Says

variable {r : Verdict} {holds stumbles : Prop}

theorem says_iff (h : Says r holds stumbles) : (r = .ok () ↔ holds ∧ ¬stumbles) ∧
    (r.isRejection = true ↔ ¬holds ∧ ¬stumbles) ∧ (r = .error .unwritable ↔ stumbles) := by
  cases r with
  | ok u => simp_all [Says, Verdict.isRejection]
  | error e => cases e <;> simp_all [Says, Verdict.isRejection]

theorem says_rejectFor {cause : Cause} (h : ¬holds) (hs : ¬stumbles) : Says (rejectFor cause) holds stumbles := ⟨h, hs⟩

theorem says_congr {holds' stumbles' : Prop} (h : Says r holds stumbles) (hh : holds' ↔ holds) (hs : stumbles' ↔ stumbles) :
    Says r holds' stumbles' := by
  rwa [hh, hs]

theorem says_demand {b : Bool} {message : Option String} {cause : Cause} {told : Bool} (hb : b = true ↔ holds)
    (hcause : cause.isWritable = told) : Says (demand b message cause) holds (told = false ∧ ¬holds) := by
  subst hcause
  rw [← hb]
  unfold demand
  cases b <;> cases hw : cause.isWritable <;> simp [Says, rejectFor]

end Says

section Rows

variable {α : Type} {H S : α → Prop} {xs : List α} {cs : List Validator} {v : Value}

theorem says_runAll (h : List.Forall₂ (fun x c => Says (c.run v) (H x) (S x)) xs cs) :
    Says (runAll cs v) (∀ x ∈ xs, H x) (Reaches H S xs) := by
  induction h with
  | nil => simp [Says, Reaches]
  | @cons x c xs cs hc _ ih =>
    rw [runAll]
    cases hrun : c.run v with
    | ok u =>
      rw [hrun] at hc
      exact says_congr ih (by simp [hc.1]) (by simp [Reaches, hc.1, hc.2])
    | error e =>
      rw [hrun] at hc
      cases e with
      | invalid e => exact ⟨fun h => hc.1 (h x List.mem_cons_self), by simp [Reaches, hc.1, hc.2]⟩
      | unwritable => exact .inl hc

theorem says_firstOr {cause : Cause} (h : List.Forall₂ (fun x c => Says (c.run v) (H x) (S x)) xs cs) :
    Says (Verdict.firstOr (rejectFor cause) (runAlternatives cs v)) (∃ x ∈ xs, H x) (Reaches (fun x => ¬H x) S xs) := by
  rw [Verdict.firstOr, find_runAlternatives]
  induction h with
  | nil => simp [Says, rejectFor, Reaches]
  | @cons x c xs cs hc _ ih =>
    rw [List.find?_cons, rejects]
    cases hrun : c.run v with
    | ok u =>
      rw [hrun] at hc
      simp only [Verdict.isRejection, Bool.not_false, Option.map_some, Option.getD_some, hrun]
      exact ⟨⟨x, List.mem_cons_self, hc.1⟩, by simp [Reaches, hc.1, hc.2]⟩
    | error e =>
      rw [hrun] at hc
      cases e with
      | invalid e => exact says_congr ih (by simp [hc.1]) (by simp [Reaches, hc.1, hc.2])
      | unwritable =>
        simp only [Verdict.isRejection, Bool.not_false, Option.map_some, Option.getD_some, hrun]
        exact .inl hc

/-- Branches that a value is not offered to count as if they rejected it. -/
theorem says_runBranches {cause : Cause} {bs : List (Primitive × Validator)}
    (h : List.Forall₂ (fun x b => (offers v b.1 = true ∧ Says (b.2.run v) (H x) (S x)) ∨
      (offers v b.1 = false ∧ ¬H x ∧ ¬S x)) xs bs) :
    Says (Verdict.firstOr (rejectFor cause) (runBranches bs v)) (∃ x ∈ xs, H x) (Reaches (fun x => ¬H x) S xs) := by
  rw [Verdict.firstOr, find_runBranches]
  induction h with
  | nil => simp [Says, rejectFor, Reaches]
  | @cons x b xs bs hb _ ih =>
    rw [List.find?_cons, rejects]
    rcases hb with ⟨ho, hb⟩ | ⟨ho, hH, hS⟩
    · cases hrun : b.2.run v with
      | ok u =>
        rw [hrun] at hb
        simp only [Verdict.isRejection, ho, Bool.not_false, Bool.and_self, Option.map_some, Option.getD_some, hrun]
        exact ⟨⟨x, List.mem_cons_self, hb.1⟩, by simp [Reaches, hb.1, hb.2]⟩
      | error e =>
        rw [hrun] at hb
        cases e with
        | invalid e =>
          simp only [Verdict.isRejection, Bool.not_true, Bool.and_false]
          exact says_congr ih (by simp [hb.1]) (by simp [Reaches, hb.1, hb.2])
        | unwritable =>
          simp only [Verdict.isRejection, ho, Bool.not_false, Bool.and_self, Option.map_some, Option.getD_some, hrun]
          exact .inl hb
    · rw [ho, Bool.false_and]
      exact says_congr ih (by simp [hH]) (by simp [Reaches, hH, hS])

theorem says_decideUnion {kinds : List Primitive} {mismatch : Option String} {rs : List Verdict} {holds stumbles : Prop}
    (h : ∀ cause, Says (Verdict.firstOr (rejectFor cause) rs) holds stumbles) :
    Says (decideUnion kinds mismatch v rs) holds stumbles := by
  unfold decideUnion
  split
  · exact h .missing
  · next only =>
    have honly := h .missing
    cases only with
    | ok u => exact honly
    | error e => cases e <;> exact honly
  · exact h _

theorem says_eachItem {run : Value → Verdict} {H S : Value → Prop} {i : Nat} {items : List Value}
    (h : ∀ w ∈ items, Says (run w) (H w) (S w)) : Says (eachItem run i items) (∀ w ∈ items, H w) (Reaches H S items) := by
  induction items generalizing i with
  | nil => simp [eachItem, Says, Reaches]
  | cons w items ih =>
    obtain ⟨hw, hitems⟩ := List.forall_mem_cons.mp h
    rw [eachItem]
    cases hrun : run w with
    | ok u =>
      rw [hrun] at hw
      exact says_congr (ih hitems) (by simp [hw.1]) (by simp [Reaches, hw.1, hw.2])
    | error e =>
      rw [hrun] at hw
      cases e with
      | invalid e => exact ⟨fun h => hw.1 (h w List.mem_cons_self), by simp [Reaches, hw.1, hw.2]⟩
      | unwritable => exact .inl hw

end Rows

section Checks

variable {p : Primitive} {w v m : Value} {k : Check} {d : Validator}

variable [Text.CharacterNames]

theorem says_ofCheck {j : RuleKind} (hk : k.kind? = some j) (hd : ofCheck k m (some (.container p)) = .ok d)
    (hj : j ∈ RuleKind.checksOf p) (hv : p.Admits w v) :
    Says (d.run v) (k.Holds v) (k.isTellable = false ∧ ¬k.Holds v) := by
  have haccepts := accepts_ofCheck_iff hk hd hj hv
  obtain ⟨b, message, cause, hrun, hcause⟩ := run_eq_demand hd v
  rw [accepts, hrun, isOk_demand] at haccepts
  rw [hrun]
  exact says_demand haccepts hcause

end Checks

/-! ### Places -/

/-- A tree stands where a whole value is asked for, or inside a container, where it sees a value that the container takes. -/
def Placed (allowed : List RuleKind) (parent : Option RuleKind) (v : Value) : Prop :=
  (∀ k ∈ allowed, k ∈ RuleKind.bindable) ∨
    ∃ p w, parent = some (.container p) ∧ (∀ k ∈ allowed, k ∈ RuleKind.childrenOf p) ∧ p.Admits w v

theorem inside_of_placed {allowed : List RuleKind} {parent : Option RuleKind} {v : Value} {k : RuleKind}
    (h : Placed allowed parent v) (ha : k ∈ allowed) (hk : k ∉ RuleKind.bindable) :
    ∃ p w, parent = some (.container p) ∧ k ∈ RuleKind.childrenOf p ∧ p.Admits w v := by
  rcases h with hb | ⟨p, w, hp, hc, hv⟩
  · exact absurd (hb k ha) hk
  · exact ⟨p, w, hp, hc k ha, hv⟩

theorem says_prop {inner : Validator} {key : Key} {es : List (Value × Value)} {holds stumbles : Prop}
    (h : Says (inner.run (Value.property key es)) holds stumbles) :
    Says ((prop key inner).run (.map es)) holds (stumbles ∨ key.isWritable = false ∧ ¬holds) := by
  rw [run]
  cases hrun : inner.run (Value.property key es) with
  | ok u =>
    rw [hrun] at h
    exact ⟨h.1, by simp [h.1, h.2]⟩
  | error e =>
    rw [hrun] at h
    cases e with
    | invalid e =>
      cases hkey : key.isWritable <;> simp_all [Says, RunError.locatedAt, Location.isWritable]
    | unwritable => exact .inl h

section Names

variable [Text.CharacterNames]

/-- Wherever a tree may stand, its validator says of a value what it means and whether it stumbles. -/
def Agrees (t : Tree) : Prop :=
  ∀ {allowed : List RuleKind} {parent : Option RuleKind} {c : Validator} {v : Value},
    ofNode allowed parent t = .ok c → Placed allowed parent v → v.Genuine → Says (c.run v) (t.Holds v) (t.Stumbles v)

theorem isMismatch_of_bindable {allowed : List RuleKind} {parent : Option RuleKind} {t : Tree} {c : Validator}
    (h : ofNode allowed parent t = .ok c) (ha : ∀ k ∈ allowed, k ∈ RuleKind.bindable) : t.isMismatch = false := by
  obtain ⟨k, hk, hkind⟩ := kind?_of_ofNode_eq_ok h
  refine Tree.isMismatch_eq_false_of_kind? hkind fun hm => ?_
  subst hm
  exact absurd (ha _ hk) (by decide)

/-! ### Trees -/

section Trees

variable {t : Tree} {ts : List Tree}

theorem agrees_check (k : Check) (m : Value) : Agrees (.check k m) := by
  intro allowed parent c v hc hplace hv
  obtain ⟨⟨j, ha, hk⟩, hd⟩ := ofNode_check_eq_ok_iff.mp hc
  obtain ⟨p, w, rfl, hp, hv⟩ := inside_of_placed hplace ha (RuleKind.not_mem_bindable_of_check hk)
  rw [Tree.Holds, Tree.Stumbles]
  by_cases hm : j = .mismatch
  · subst hm
    cases k with
    | mismatch => exact absurd hd fault_ne_ok
    | _ => cases hk
  · exact says_ofCheck hk hd (RuleKind.mem_checksOf hp hm) hv

theorem agrees_container {p : Primitive} (h : t.Comprises (.container p) ts) (ih : ∀ s ∈ ts, Agrees s) : Agrees t := by
  intro allowed parent c v hc _ hv
  obtain ⟨-, checks, message, hts, -, rfl⟩ := (ofNode_container_eq_ok_iff h).mp hc
  rw [Tree.holds_of_comprises h, Tree.stumbles_of_comprises h, Group.Holds, Group.Stumbles]
  by_cases hnull : v = .null
  · subst hnull
    rw [run_container_null]
    refine ⟨.inl rfl, ?_⟩
    rintro ⟨seen, hseen, -⟩
    cases hseen
  rw [run_container hnull]
  simp only [← receive_eq_ok_iff hv, hnull, false_or]
  cases hr : receive p v with
  | error cause => exact says_rejectFor (by simp) (by simp)
  | ok seen =>
    have hgenuine : seen.Genuine := genuine_of_receive hv hr
    have hplace : Placed (RuleKind.childrenOf p) (some (.container p)) seen :=
      .inr ⟨p, v, rfl, fun _ hk => hk, (receive_eq_ok_iff hv).mp hr⟩
    have hchecks := says_runAll (forall₂_imp_of_mem hts fun s hs d hd => ih s (Tree.mem_proper.mp hs).1 hd hplace hgenuine)
    simpa using hchecks

theorem agrees_union (h : t.Comprises .union ts) (ih : ∀ s ∈ ts, Agrees s) : Agrees t := by
  intro allowed parent c v hc _ hv
  obtain ⟨-, branches, message, hts, -, -, -, rfl⟩ := (ofNode_union_eq_ok_iff h).mp hc
  rw [Tree.holds_of_comprises h, Tree.stumbles_of_comprises h, Group.Holds, Group.Stumbles]
  by_cases hnull : v = .null
  · subst hnull
    rw [run_union_null]
    exact ⟨.inl rfl, fun h => h.1 rfl⟩
  rw [run_union hnull]
  simp only [hnull, false_or, ne_eq, not_false_eq_true, true_and]
  refine says_decideUnion fun cause => says_runBranches (forall₂_imp_of_mem hts fun s hs b hb => ?_)
  have hbranch := ih s (Tree.mem_proper.mp hs).1 hb.2 (.inl fun k hk => RuleKind.values_bindable hk) hv
  cases ho : offers v b.1 with
  | true => exact .inl ⟨rfl, hbranch⟩
  | false =>
    -- a branch that would not reject is a container of its own kind, so the value would be offered to it
    obtain ⟨checks, mismatch, hbuilt⟩ := container_of_buildsBranch hb
    rw [hbuilt, run_container hnull] at hbranch
    cases hr : receive b.1 v with
    | error cause =>
      rw [hr] at hbranch
      exact .inr ⟨rfl, hbranch⟩
    | ok seen => cases ho.symm.trans (offers_of_receive hr)

theorem agrees_any (h : t.Comprises .any ts) (ih : ∀ s ∈ ts, Agrees s) : Agrees t := by
  intro allowed parent c v hc hplace hv
  obtain ⟨ha, p, alternatives, rfl, -, hms, hts, -, rfl⟩ := (ofNode_any_eq_ok_iff h).mp hc
  obtain ⟨_, w, hp, -, hw⟩ := inside_of_placed hplace ha (by decide)
  cases hp
  rw [Tree.holds_of_comprises h, Tree.stumbles_of_comprises h, Group.Holds, Group.Stumbles, Tree.proper_eq_self hms, run,
    decideAny]
  have hplace : Placed (RuleKind.alternativesOf p) (some (.container p)) v :=
    .inr ⟨p, w, rfl, fun _ hk => RuleKind.alternatives_children hk, hw⟩
  exact says_firstOr (forall₂_imp_of_mem hts fun s hs d hd => ih s hs hd hplace hv)

theorem agrees_prop {name : Value} (h : t.Comprises (.prop name) ts) (ih : ∀ s ∈ ts, Agrees s) : Agrees t := by
  intro allowed parent c v hc hplace hv
  obtain ⟨ha, s, key, inner, rfl, hkey, hs, rfl⟩ := (ofNode_prop_eq_ok_iff h).mp hc
  obtain ⟨p, w, rfl, hp, hw⟩ := inside_of_placed hplace ha (by decide)
  obtain ⟨rfl, -⟩ := propName_eq_ok_iff.mp hkey
  rw [Tree.holds_of_comprises h, Tree.stumbles_of_comprises h, Group.Holds, Group.Stumbles,
    Tree.proper_cons (isMismatch_of_bindable hs fun _ hk => hk)]
  cases hw with
  | object es =>
    have hinner := ih s List.mem_cons_self hs (.inl fun _ hk => hk) (Value.genuine_property hv key)
    have hname (k : Key) : key.toValue = k.toValue ↔ key = k :=
      ⟨fun h => Key.toValue_injective h, fun h => congrArg Key.toValue h⟩
    refine says_congr (says_prop hinner) ?_ ?_
    · simp [Tree.proper, hname]
    · simp [Tree.proper, hname, Reaches]
  | _ => simp [RuleKind.childrenOf, RuleKind.checksOf] at hp

theorem agrees_item (h : t.Comprises .item ts) (ih : ∀ s ∈ ts, Agrees s) : Agrees t := by
  intro allowed parent c v hc hplace hv
  obtain ⟨ha, s, inner, rfl, hs, rfl⟩ := (ofNode_item_eq_ok_iff h).mp hc
  obtain ⟨p, w, rfl, hp, hw⟩ := inside_of_placed hplace ha (by decide)
  have hitems : ∃ items, v.items? = some items := by
    cases hw with
    | list vs => exact ⟨vs, rfl⟩
    | tuple vs => exact ⟨vs, rfl⟩
    | _ => simp [RuleKind.childrenOf, RuleKind.checksOf] at hp
  obtain ⟨items, hitems⟩ := hitems
  have hinner : ∀ x ∈ items, Says (inner.run x) (s.Holds x) (s.Stumbles x) := fun x hx =>
    ih s List.mem_cons_self hs (.inl fun _ hk => hk) (Value.genuine_of_items hv hitems x hx)
  rw [Tree.holds_of_comprises h, Tree.stumbles_of_comprises h, Group.Holds, Group.Stumbles,
    Tree.proper_cons (isMismatch_of_bindable hs fun _ hk => hk), run]
  simp only [hitems]
  refine says_congr (says_eachItem hinner) ?_ ?_
  · simp [Tree.proper]
  · simp [Tree.proper, Reaches]

theorem agrees_required {m : Value} (h : t.Comprises (.required m) ts) (ih : ∀ s ∈ ts, Agrees s) : Agrees t := by
  intro allowed parent c v hc _ hv
  rw [Tree.holds_of_comprises h, Tree.stumbles_of_comprises h, Group.Holds, Group.Stumbles]
  obtain ⟨-, -, ⟨rfl, rfl⟩ | ⟨s, inner, rfl, hs, rfl⟩⟩ := (ofNode_required_eq_ok_iff h).mp hc
  · by_cases hnull : v = .null
    · subst hnull
      rw [run]
      exact says_rejectFor (fun h => h.1 rfl) fun h => h.1 rfl
    · have hacc : (required none (givenMessage m)).accepts v = true := accepts_required_none_iff.mpr hnull
      rw [accepts_iff_run_eq_ok.mp hacc]
      simp [Says, Tree.proper, Reaches, hnull]
  · have hinner := ih s List.mem_cons_self hs (.inl fun _ hk => RuleKind.wrappable_bindable hk) hv
    rw [Tree.proper_cons (isMismatch_of_bindable hs fun _ hk => RuleKind.wrappable_bindable hk)]
    by_cases hnull : v = .null
    · subst hnull
      rw [run]
      exact says_rejectFor (fun h => h.1 rfl) fun h => h.1 rfl
    · rw [run_required_some hnull]
      refine says_congr hinner ?_ ?_
      · simp [Tree.proper, hnull]
      · simp [Tree.proper, hnull, Reaches]

theorem agrees (t : Tree) : Agrees t := by
  induction t using built_induct with
  | faulty t h => exact fun hc => absurd hc (h _ _ _)
  | check k m => exact agrees_check k m
  | any t ts h ih => exact agrees_any h ih
  | union t ts h ih => exact agrees_union h ih
  | container p t ts h ih => exact agrees_container h ih
  | prop name t ts h ih => exact agrees_prop h ih
  | item t ts h ih => exact agrees_item h ih
  | required m t ts h ih => exact agrees_required h ih

end Trees

/-- The validator of a tree accepts the genuine values that the tree means, unless it stumbles; it rejects those that the tree
does not mean, unless it stumbles; and if it stumbles, some limit or name in the tree cannot be written. On a genuine value it
asks for no number, length or instant that the value does not have. -/
theorem accepts_iff_holds {t : Tree} {c : Validator} {v : Value} (h : ofTree t = .ok c) (hv : v.Genuine) :
    (c.run v = .ok () ↔ t.Holds v ∧ ¬t.Stumbles v) ∧
      ((∃ e, c.run v = .error (.invalid e)) ↔ ¬t.Holds v ∧ ¬t.Stumbles v) ∧
      (c.run v = .error .unwritable ↔ t.Stumbles v) ∧
      (t.isTellable = true → ¬t.Stumbles v) ∧ c.Supports v := by
  obtain ⟨haccepts, hrejects, hstumbles⟩ := says_iff (agrees t h (.inl fun _ hk => hk) hv)
  rw [Verdict.isRejection_eq_true_iff] at hrejects
  exact ⟨haccepts, hrejects, hstumbles, fun htell => Tree.not_stumbles_of_isTellable htell v, supports_of_genuine c hv⟩

end Names

open Text.CommonNames

theorem accepts_iff_holds_aged :
    ∃ (t : Tree) (c : Validator) (v : Value),
      t = .union [.container .string [.bound .min (.number (.int 3))],
        .container .object [.prop (.str "age") [.required [.container .number [.bound .more (.number (.int 17))]]]]] ∧
      v = .map [(.str "age", .number (.int 20))] ∧
      ofTree t = .ok c ∧ v.Genuine ∧ c.run v = .ok () ∧ t.Holds v ∧ ¬t.Stumbles v ∧ c.Supports v := by
  let t : Tree := .union [.container .string [.bound .min (.number (.int 3))],
    .container .object [.prop (.str "age") [.required [.container .number [.bound .more (.number (.int 17))]]]]]
  let v : Value := .map [(.str "age", .number (.int 20))]
  have hv : v.Genuine := ⟨trivial, trivial⟩
  obtain ⟨c, hc⟩ : ∃ c, ofTree t = .ok c := ⟨_, rfl⟩
  have hacc : c.run v = .ok () := by
    cases hc
    rfl
  obtain ⟨hiff, -, -, -, hs⟩ := accepts_iff_holds hc hv
  exact ⟨t, c, v, rfl, rfl, hc, hv, hacc, (hiff.mp hacc).1, (hiff.mp hacc).2, hs⟩

/-- A value that the second alternative means; the limit of the first cannot be told. -/
theorem meant_not_accepted :
    ∃ (t : Tree) (c : Validator) (v : Value),
      t = .container .number [.any [.bound .min (.number (.int Decimal.leastUnwritable)), .bound .max (.number (.int 7))]] ∧
      v = .number (.int 5) ∧ ofTree t = .ok c ∧ v.Genuine ∧ t.Holds v ∧ c.run v = .error .unwritable := by
  let first : Tree := .bound .min (.number (.int Decimal.leastUnwritable))
  let second : Tree := .bound .max (.number (.int 7))
  let either : Tree := .any [first, second]
  let t : Tree := .container .number [either]
  let v : Value := .number (.int 5)
  have heither : either.Comprises .any [first, second] := .group _ _ _
  have ht : t.Comprises (.container .number) [either] := .group _ _ _
  have hv : Primitive.number.Admits v v := .number _ _ rfl
  have hgenuine : v.Genuine := trivial
  have hfirst : first.Stumbles v := Tree.stumbles_of_measure? rfl rfl
  have hsecond : second.Holds v := ⟨_, _, rfl, rfl, not_lt.mp fun h => by cases (ExtendedRat.lt_iff _ _).mpr h⟩
  have hmeant : either.Holds v := (Tree.holds_of_comprises heither).mpr ⟨second, Tree.mem_proper.mpr ⟨by simp, rfl⟩, hsecond⟩
  have hstumbles : either.Stumbles v := (Tree.stumbles_of_comprises heither).mpr (.inl hfirst)
  obtain ⟨c, hc⟩ : ∃ c, ofTree t = .ok c := ⟨_, rfl⟩
  refine ⟨t, c, v, rfl, rfl, hc, hgenuine, ?_, ?_⟩
  · exact (Tree.holds_of_comprises ht).mpr (.inr ⟨v, hv, List.forall_mem_singleton.mpr hmeant⟩)
  · have hwhole : t.Stumbles v := (Tree.stumbles_of_comprises ht).mpr ⟨v, hv, .inl hstumbles⟩
    exact (says_iff (agrees t hc (.inl fun _ hk => hk) hgenuine)).2.2.mpr hwhole

end Validator

end RuleTree
