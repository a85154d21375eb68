import RuleTree.Proofs.Build.Nodes
import RuleTree.Proofs.Rule.Grammar
import RuleTree.Proofs.Validator.Accepts
import RuleTree.Proofs.Value.Equivalence
import RuleTree.Rule.Build
import RuleTree.Text.CommonNames

/-!
# Representation

A validator does not tell equivalent values apart: it accepts both, or it rejects both for the same cause at the same place.
Two runs are compared step by step; every part of the validator sees equivalent values in both. Only a container of numbers
may see numbers that are not finite, and it rejects them before any of its checks could compare them.
-/

namespace RuleTree

open Value (Equivalent)

/-! ### Comparisons -/

namespace Number

variable {m n : Number}

theorem eqv_congr (h : m.extended? = n.extended?) (x : Number) : m.eqv x = n.eqv x := by
  unfold eqv
  rw [h]

theorem isNumber_congr (h : m.extended? = n.extended?) : m.isNumber = n.isNumber := by
  unfold isNumber
  rw [h]

theorem allows_congr (h : m.extended? = n.extended?) (b : Bound) (limit : Number) :
    b.allows m limit = b.allows n limit := by
  cases b <;> simp only [Bound.allows, lt, le, h]

end Number

namespace Validator

section Leaves

variable {v w : Value}

/-- A property of a number that depends on its exact value alone. -/
theorem number_any_congr (h : Equivalent v w) (hv : v.isFiniteNumber = true) {holds : Number → Bool}
    (hholds : ∀ {m n : Number}, m.extended? = n.extended? → holds m = holds n) :
    v.number?.any holds = w.number?.any holds := by
  obtain ⟨m, n, rfl, rfl, hmn⟩ := h.finite_number hv
  have hnumber : m.isNumber = n.isNumber := Number.isNumber_congr hmn
  simp only [Value.number?, hnumber]
  by_cases hn : n.isNumber = true
  · simp only [hn, if_true, Option.any_some, hholds hmn]
  · simp only [hn, Bool.false_eq_true, if_false]

theorem stampHolds_congr (h : Equivalent v w) (holds : Int → Bool) : stampHolds v holds = stampHolds w holds := by
  unfold stampHolds
  rw [h.kind, h.stamp?]

/-- Equality with a value of a kind that no rows, mappings or dates are of. -/
theorem eqv_congr {p : Primitive} {e : Value} (h : Equivalent v w) (hv : v.kind = .primitive p)
    (hp : .equal ∈ RuleKind.childrenOf p) (hdate : p ≠ .date) (hn : p = .number → e.isNumber = true)
    (hf : p = .number → v.isFiniteNumber = true) : v.eqv e = w.eqv e := by
  cases h with
  | finite hm hn' =>
    cases hv
    obtain ⟨n, he⟩ := Option.isSome_iff_exists.mp (hn rfl)
    obtain ⟨rfl, -⟩ := Value.number?_iff.mp he
    exact Number.eqv_congr (hm.trans hn'.symm) n
  | unbounded hx =>
    cases hv
    exact absurd (hx.symm.trans (hf rfl)) (by decide)
  | date hk =>
    have hpd : Kind.primitive .date = .primitive p := hk.symm.trans hv
    exact absurd (Kind.primitive.inj hpd).symm hdate
  | row hi =>
    rcases Value.list_or_tuple hi with rfl | rfl
    · cases hv
      exact absurd hp (by decide)
    · cases hv
      exact absurd hp (by decide)
  | map =>
    cases hv
    exact absurd hp (by decide)
  | _ => rfl

variable [Text.CharacterNames]

/-- A leaf does not tell equivalent values apart; if it compares numbers, they are finite. -/
theorem run_ofCheck_congr {p : Primitive} {k : Check} {j : RuleKind} {m : Value} {c : Validator}
    (hk : k.kind? = some j) (hj : j ∈ RuleKind.childrenOf p) (hc : ofCheck k m (some (.container p)) = .ok c)
    (h : Equivalent v w) (hf : p = .number → v.isFiniteNumber = true) : c.run v = c.run w := by
  cases k with
  | equal e =>
    cases hk
    by_cases hdate : p = .date
    · subst hdate
      obtain ⟨stamp, -, -, rfl⟩ := ofEqual_date_eq_ok_iff.mp hc
      have hholds : (v.kind != .primitive .date || v.stamp? == some stamp) =
          (w.kind != .primitive .date || w.stamp? == some stamp) := by rw [h.kind, h.stamp?]
      exact congrArg (fun holds => demand holds _ _) hholds
    · obtain ⟨-, hn, -, -, rfl⟩ := (ofEqual_eq_ok_iff hdate).mp hc
      have hholds : (v.kind != .primitive p || v.eqv e) = (w.kind != .primitive p || w.eqv e) := by
        rw [← h.kind]
        by_cases hv : v.kind = .primitive p
        · rw [eqv_congr h hv hj hdate hn hf]
        · have hne : (v.kind != .primitive p) = true := bne_iff_ne.mpr hv
          rw [hne, Bool.true_or, Bool.true_or]
      exact congrArg (fun holds => demand holds _ _) hholds
  | bound b limit =>
    obtain ⟨n, subject, -, hs, -, rfl⟩ := ofBound_eq_ok_iff.mp hc
    have hmeasure : (subject.measure? v).any (b.allows · n) = (subject.measure? w).any (b.allows · n) := by
      cases subject with
      | number =>
        have hp : p = .number := by
          cases p with
          | number => rfl
          | _ => cases hs
        exact number_any_congr h (hf hp) fun hxy => Number.allows_congr hxy b n
      | _ => simp only [Subject.measure?, h.length?]
    have hholds : (v.kind != .primitive subject.primitive || (subject.measure? v).any (b.allows · n)) =
        (w.kind != .primitive subject.primitive || (subject.measure? w).any (b.allows · n)) := by
      rw [h.kind, hmeasure]
    exact congrArg (fun holds => demand holds _ _) hholds
  | range min max =>
    cases hk
    obtain ⟨low, high, -, -, -, -, rfl⟩ := ofRange_eq_ok_iff.mp hc
    have hp : p = .number := RuleKind.range_mem_childrenOf_iff.mp hj
    have hbetween : (v.number?.any fun x => low.le x && x.le high) = w.number?.any fun x => low.le x && x.le high :=
      number_any_congr h (hf hp) fun hxy => by simp only [Number.le, hxy]
    have hholds : (v.kind != .primitive .number || v.number?.any fun x => low.le x && x.le high) =
        (w.kind != .primitive .number || w.number?.any fun x => low.le x && x.le high) := by
      rw [h.kind, hbetween]
    exact congrArg (fun holds => demand holds _ _) hholds
  | pattern regex =>
    obtain ⟨literal, q, -, -, -, rfl⟩ := ofPattern_eq_ok_iff.mp hc
    have hholds : v.str?.all q.search = w.str?.all q.search := by rw [h.str?]
    exact congrArg (fun holds => demand holds _ _) hholds
  | dateBound b boundary =>
    obtain ⟨stamp, -, -, rfl⟩ := ofDateBound_eq_ok_iff.mp hc
    exact congrArg (fun holds => demand holds _ _) (stampHolds_congr h _)
  | between first last =>
    obtain ⟨begins, ends, -, -, -, -, rfl⟩ := ofBetween_eq_ok_iff.mp hc
    exact congrArg (fun holds => demand holds _ _) (stampHolds_congr h _)
  | mismatch => exact absurd hc fault_ne_ok
  | kindless name e => exact absurd hc fault_ne_ok

end Leaves

/-! ### Containers -/

section Parts

variable {v w : Value} {c : Validator} {cs : List Validator} {bs : List (Primitive × Validator)}

theorem receive_of_not_text {p : Primitive} (h : v.str? = none) :
    receive p v = if v.kind != .primitive p then .error (.kind p v.kind.name)
      else if p == .number && !v.isFiniteNumber then .error (.kind p "invalid number") else .ok v := by
  unfold receive
  split
  · cases h
  · rfl

theorem receive_text (p : Primitive) (s : String) :
    (∃ cause, receive p (.str s) = .error cause ∧ receive p (.str s) = .error cause) ∨
      ∃ a b, receive p (.str s) = .ok a ∧ receive p (.str s) = .ok b ∧ Equivalent a b ∧
        (p = .number → a.isFiniteNumber = true) := by
  cases p with
  | string => exact .inr ⟨.str s, .str s, rfl, rfl, .str s, fun hp => by cases hp⟩
  | date =>
    cases hm : Moment.read? s with
    | none =>
      have hr : receive .date (.str s) = .error (.kind .date (Value.str s).kind.name) := by rw [receive, hm]
      exact .inl ⟨_, hr, hr⟩
    | some m =>
      have hr : receive .date (.str s) = .ok (.moment m) := by rw [receive, hm]
      exact .inr ⟨.moment m, .moment m, hr, hr, .date rfl rfl rfl rfl, fun hp => by cases hp⟩
  | _ => exact .inl ⟨_, rfl, rfl⟩

/-- A container receives equivalent values from equivalent values, numbers only if they are finite, or rejects both for the
same cause. -/
theorem receive_congr (h : Equivalent v w) (p : Primitive) :
    (∃ cause, receive p v = .error cause ∧ receive p w = .error cause) ∨
      ∃ a b, receive p v = .ok a ∧ receive p w = .ok b ∧ Equivalent a b ∧
        (p = .number → a.isFiniteNumber = true) := by
  cases hs : v.str? with
  | some s =>
    have hws : w.str? = some s := h.str?.symm.trans hs
    obtain rfl := Value.eq_of_str? hs
    obtain rfl := Value.eq_of_str? hws
    exact receive_text p s
  | none =>
    have hws : w.str? = none := h.str?.symm.trans hs
    rw [receive_of_not_text hs, receive_of_not_text hws, ← h.kind, ← h.isFiniteNumber]
    by_cases hk : (v.kind != .primitive p) = true
    · simp only [if_pos hk]
      exact .inl ⟨_, rfl, rfl⟩
    · simp only [if_neg hk]
      by_cases hn : (p == .number && !v.isFiniteNumber) = true
      · simp only [if_pos hn]
        exact .inl ⟨_, rfl, rfl⟩
      · simp only [if_neg hn]
        refine .inr ⟨v, w, rfl, rfl, h, fun hp => ?_⟩
        simpa [hp] using hn

theorem offers_eq (v : Value) (p : Primitive) :
    offers v p = (v.kind == .primitive p || (p == .date && v.str?.any fun s => (Moment.read? s).isSome)) := by
  cases v <;> rfl

theorem offers_congr (h : Equivalent v w) (p : Primitive) : offers v p = offers w p := by
  rw [offers_eq, offers_eq, h.kind, h.str?]

/-! Only null and mappings are told apart by how they are built. -/

theorem run_prop_of_not_map {key : Key} (hv : ∀ es, v ≠ .map es) : (prop key c).run v = .ok () := by
  rw [run]
  exact fun es h => hv es h

theorem run_required_none_of_ne_null {message : Option String} (hv : v ≠ .null) :
    (required none message).run v = .ok () := by
  rw [run]
  exact fun h => hv h

theorem runAll_congr (h : ∀ c ∈ cs, c.run v = c.run w) : runAll cs v = runAll cs w := by
  induction cs with
  | nil => rw [runAll_nil, runAll_nil]
  | cons c cs ih =>
    rw [runAll, runAll, h c List.mem_cons_self, ih fun d hd => h d (List.mem_cons_of_mem _ hd)]

theorem runAlternatives_congr (h : ∀ c ∈ cs, c.run v = c.run w) : runAlternatives cs v = runAlternatives cs w := by
  induction cs with
  | nil => rw [runAlternatives_nil, runAlternatives_nil]
  | cons c cs ih =>
    rw [runAlternatives, runAlternatives, h c List.mem_cons_self, ih fun d hd => h d (List.mem_cons_of_mem _ hd)]

theorem runBranches_congr (h : Equivalent v w) (hbs : ∀ b ∈ bs, b.2.run v = b.2.run w) :
    runBranches bs v = runBranches bs w := by
  induction bs with
  | nil => rw [runBranches_nil, runBranches_nil]
  | cons b bs ih =>
    rw [runBranches, runBranches, offers_congr h, hbs b List.mem_cons_self,
      ih fun d hd => hbs d (List.mem_cons_of_mem _ hd)]

theorem decideUnion_congr (h : Equivalent v w) (kinds : List Primitive) (mismatch : Option String)
    (results : List Verdict) :
    decideUnion kinds mismatch v results = decideUnion kinds mismatch w results := by
  unfold decideUnion
  rw [h.kind]

theorem eachItem_congr {vs ws : List Value} (h : List.Forall₂ Equivalent vs ws)
    (hrun : ∀ {x y}, Equivalent x y → c.run x = c.run y) (i : Nat) :
    eachItem (fun x => c.run x) i vs = eachItem (fun x => c.run x) i ws := by
  induction h generalizing i with
  | nil => rfl
  | cons hxy _ ih => rw [eachItem, eachItem, hrun hxy, ih]

end Parts

/-! ### Trees -/

section Trees

variable {t : Tree} {ts : List Tree}

variable [Text.CharacterNames]

/-- What is built of a tree does not tell equivalent values apart. In a container of numbers the values are finite. -/
def Respects (t : Tree) : Prop :=
  ∀ {allowed : List RuleKind} {parent : Option RuleKind} {c : Validator} {place : Position} {v w : Value},
    ofNode allowed parent t = .ok c → place.Governs allowed parent →
      (place = .inside .number → v.isFiniteNumber = true) → Equivalent v w → c.run v = c.run w

theorem respects_check (k : Check) (m : Value) : Respects (.check k m) := by
  intro allowed parent c place v w hc hplace hfinite hvw
  obtain ⟨⟨j, ha, hk⟩, hleaf⟩ := ofNode_check_eq_ok_iff.mp hc
  -- A leaf stands in a container: only there are its kinds allowed.
  obtain ⟨p, rfl⟩ := Position.exists_inside (hplace.1 j ha) (RuleKind.not_mem_bindable_of_check hk)
  obtain rfl := hplace.2 p rfl
  refine run_ofCheck_congr hk (hplace.1 j ha) hleaf hvw fun hp => hfinite ?_
  rw [hp]

theorem respects_row {allowed : List RuleKind} {parent : Option RuleKind} {place : Position} {cs : List Validator}
    {v w : Value} (hplace : place.Governs allowed parent) (hfinite : place = .inside .number → v.isFiniteNumber = true)
    (hvw : Equivalent v w) (ih : ∀ s ∈ ts, Respects s)
    (h : List.Forall₂ (fun s c => ofNode allowed parent s = .ok c) ts cs) : ∀ c ∈ cs, c.run v = c.run w := by
  intro c hc
  obtain ⟨s, hs, hbuilt⟩ := exists_left_of_forall₂ h hc
  exact ih s hs hbuilt hplace hfinite hvw

theorem respects_any (h : t.Comprises .any ts) (ih : ∀ s ∈ ts, Respects s) : Respects t := by
  intro allowed parent c place v w hc hplace hfinite hvw
  obtain ⟨ha, p, cs, rfl, -, -, hts, -, rfl⟩ := (ofNode_any_eq_ok_iff h).mp hc
  obtain ⟨q, rfl⟩ := Position.exists_inside (hplace.1 _ ha) (by decide)
  have hpq : some (RuleKind.container p) = some (.container q) := hplace.2 q rfl
  cases hpq
  have hinside : (Position.inside p).Governs (RuleKind.alternativesOf p) (some (.container p)) :=
    Position.governs_inside fun _ hk => RuleKind.alternatives_children hk
  have hruns := respects_row hinside hfinite hvw ih hts
  rw [run, run, runAlternatives_congr hruns]

theorem respects_union (h : t.Comprises .union ts) (ih : ∀ s ∈ ts, Respects s) : Respects t := by
  intro allowed parent c place v w hc _ _ hvw
  obtain ⟨-, bs, message, hts, -, -, -, rfl⟩ := (ofNode_union_eq_ok_iff h).mp hc
  have hruns : ∀ b ∈ bs, b.2.run v = b.2.run w := by
    intro b hb
    obtain ⟨s, hs, hbuilt⟩ := exists_left_of_forall₂ hts hb
    exact ih s (Tree.mem_proper.mp hs).1 hbuilt.2 Position.governs_branch (fun hb => by cases hb) hvw
  by_cases hv : v = .null
  · rw [hv, hvw.null_iff.mp hv]
  · rw [run_union hv, run_union fun hw => hv (hvw.null_iff.mpr hw), runBranches_congr hvw hruns,
      decideUnion_congr hvw]

theorem respects_container {p : Primitive} (h : t.Comprises (.container p) ts) (ih : ∀ s ∈ ts, Respects s) :
    Respects t := by
  intro allowed parent c place v w hc _ _ hvw
  obtain ⟨-, cs, message, hts, -, rfl⟩ := (ofNode_container_eq_ok_iff h).mp hc
  by_cases hv : v = .null
  · rw [hv, hvw.null_iff.mp hv]
  · have hw : w ≠ .null := fun hw => hv (hvw.null_iff.mpr hw)
    rcases receive_congr hvw p with ⟨cause, hrv, hrw⟩ | ⟨a, b, hrv, hrw, hab, hfinite⟩
    · rw [run_container hv, run_container hw, hrv, hrw]
    · rw [run_container hv, run_container hw, hrv, hrw]
      have hinside : (Position.inside p).Governs (RuleKind.childrenOf p) (some (.container p)) :=
        Position.governs_inside fun _ hk => hk
      apply runAll_congr
      refine respects_row hinside (fun hp => hfinite ?_) hab (fun s hs => ih s (Tree.mem_proper.mp hs).1) hts
      cases hp
      rfl

theorem respects_prop {name : Value} (h : t.Comprises (.prop name) ts) (ih : ∀ s ∈ ts, Respects s) : Respects t := by
  intro allowed parent c place v w hc _ _ hvw
  obtain ⟨-, s, key, inner, rfl, -, hs, rfl⟩ := (ofNode_prop_eq_ok_iff h).mp hc
  rcases hvw.map_or_not with ⟨es, fs, rfl, rfl, hfound⟩ | ⟨hv, hw⟩
  · have hinner : inner.run (Value.property key es) = inner.run (Value.property key fs) :=
      ih s List.mem_cons_self hs Position.governs_value (fun hp => by cases hp) (hfound key)
    rw [run, run, hinner]
  · rw [run_prop_of_not_map hv, run_prop_of_not_map hw]

theorem respects_item (h : t.Comprises .item ts) (ih : ∀ s ∈ ts, Respects s) : Respects t := by
  intro allowed parent c place v w hc _ _ hvw
  obtain ⟨-, s, inner, rfl, hs, rfl⟩ := (ofNode_item_eq_ok_iff h).mp hc
  have hinner : ∀ {x y}, Equivalent x y → inner.run x = inner.run y :=
    fun hxy => ih s List.mem_cons_self hs Position.governs_value (fun hp => by cases hp) hxy
  rw [run, run]
  have hitems := hvw.items?
  cases hv : v.items? with
  | none =>
    rw [hv] at hitems
    cases hw : w.items? with
    | none => rfl
    | some ws =>
      rw [hw] at hitems
      cases hitems
  | some vs =>
    rw [hv] at hitems
    cases hw : w.items? with
    | none =>
      rw [hw] at hitems
      cases hitems
    | some ws =>
      rw [hw] at hitems
      cases hitems with
      | some hrow => exact eachItem_congr hrow hinner 0

theorem respects_required {m : Value} (h : t.Comprises (.required m) ts) (ih : ∀ s ∈ ts, Respects s) :
    Respects t := by
  intro allowed parent c place v w hc _ _ hvw
  obtain ⟨-, -, hts⟩ := (ofNode_required_eq_ok_iff h).mp hc
  by_cases hv : v = .null
  · rw [hv, hvw.null_iff.mp hv]
  · have hw : w ≠ .null := fun hw => hv (hvw.null_iff.mpr hw)
    rcases hts with ⟨rfl, rfl⟩ | ⟨s, inner, rfl, hs, rfl⟩
    · rw [run_required_none_of_ne_null hv, run_required_none_of_ne_null hw]
    · rw [run_required_some hv, run_required_some hw]
      exact ih s List.mem_cons_self hs Position.governs_wrapped (fun hp => by cases hp) hvw

theorem respects (t : Tree) : Respects t := by
  induction t using built_induct with
  | faulty t h => exact fun hc => absurd hc (h _ _ _)
  | check k m => exact respects_check k m
  | any t ts h ih => exact respects_any h ih
  | union t ts h ih => exact respects_union h ih
  | container p t ts h ih => exact respects_container h ih
  | prop name t ts h ih => exact respects_prop h ih
  | item t ts h ih => exact respects_item h ih
  | required m t ts h ih => exact respects_required h ih

end Trees

theorem property_cons (name : Key) (k v : Value) (es : List (Value × Value)) :
    Value.property name ((k, v) :: es) = if Value.eqv name.toValue k then v else Value.property name es := by
  unfold Value.property Value.lookup
  rw [List.find?_cons]
  split <;> simp [*]

/-- Equivalent values are both accepted, or both rejected by one and the same error. -/
theorem run_eq_of_equivalent [Text.CharacterNames] {t : Tree} {c : Validator} {v w : Value} (h : ofTree t = .ok c)
    (hvw : Equivalent v w) :
    c.run v = .ok () ∧ c.run w = .ok () ∨ ∃ e, c.run v = .error e ∧ c.run w = .error e := by
  have heq : c.run v = c.run w := respects t h Position.governs_value (fun hp => by cases hp) hvw
  rw [← heq]
  cases c.run v with
  | ok u => exact .inl ⟨rfl, rfl⟩
  | error e => exact .inr ⟨e, rfl, rfl⟩

open Text.CommonNames

/-- Another form of everything in a value: a ratio for a floating-point number, a row for a list, a moment by the clock of
another zone for a day, and the entries the other way round. -/
theorem run_eq_of_equivalent_forms :
    let three : Binary64 := ⟨false, 1024, 2251799813685248, by decide, by decide⟩
    let may : CalendarDate := ⟨2024, 5, 1, by decide⟩
    let v : Value := .map [(.str "size", .number (.float three)), (.str "days", .list [.date may])]
    let w : Value := .map [(.str "days", .tuple [.moment ⟨may, ⟨2, 0, 0, 0, by decide⟩, some ⟨7200000000, by decide⟩⟩]),
      (.str "size", .number (.ratio 3))]
    ∃ c, ofTree (.container .object [
        .prop (.str "size") [.container .number [.equal (.number (.int 3))]],
        .prop (.str "days") [.container .array [.item [.container .date [.dateBound .after (.str "2024-05-01")]]]]]) = .ok c ∧
      Equivalent v w ∧ (c.run v = .ok () ∧ c.run w = .ok () ∨ ∃ e, c.run v = .error e ∧ c.run w = .error e) := by
  intro three may v w
  have hsize : Equivalent (.number (.float three)) (.number (.ratio 3)) := .finite (q := 3) (by decide +kernel) rfl
  have hdays : Equivalent (.list [.date may]) (.tuple [.moment ⟨may, ⟨2, 0, 0, 0, by decide⟩, some ⟨7200000000, by decide⟩⟩]) :=
    have hday : Equivalent (.date may) (.moment ⟨may, ⟨2, 0, 0, 0, by decide⟩, some ⟨7200000000, by decide⟩⟩) :=
      @Equivalent.date _ _ 1714521600000 rfl rfl (by decide +kernel) (by decide +kernel)
    .row rfl rfl (.cons hday .nil)
  have hvw : Equivalent v w := by
    apply Equivalent.map
    intro name
    simp only [property_cons]
    by_cases hs : Value.eqv name.toValue (.str "size") = true
    · have hd : Value.eqv name.toValue (.str "days") = false := by
        cases name with
        | text s =>
          have hs : (s == "size") = true := hs
          rw [beq_iff_eq] at hs
          subst hs
          rfl
        | index i => rfl
      simp only [hs, hd, if_true, Bool.false_eq_true, if_false]
      exact hsize
    · simp only [hs]
      by_cases hd : Value.eqv name.toValue (.str "days") = true
      · simp only [hd, if_true]
        exact hdays
      · simp only [hd]
        exact .null
  obtain ⟨c, hc⟩ : ∃ c, ofTree (.container .object [
      .prop (.str "size") [.container .number [.equal (.number (.int 3))]],
      .prop (.str "days") [.container .array [.item [.container .date [.dateBound .after (.str "2024-05-01")]]]]]) = .ok c :=
    ⟨_, rfl⟩
  exact ⟨c, hc, hvw, run_eq_of_equivalent hc hvw⟩

end Validator

end RuleTree
