import RuleTree.Proofs.Build.Leaves
import RuleTree.Proofs.Rule.Places
import RuleTree.Proofs.Rule.Shape

/-!
# Building rules with children

For each sort of rule with children: when it has a validator, and which one, in terms of the validators of its children. The
children of a group are taken together: where the mismatch rules stand among them plays no part.
-/

namespace RuleTree.Validator

/-! ### Conditions on rules -/

theorem mismatchMessage_eq_ok_iff {allowed : List RuleKind} {seen : Bool} {m : Value} {message : Option String} :
    mismatchMessage allowed seen m = .ok message ↔
      .mismatch ∈ allowed ∧ seen = false ∧ IsMessage m ∧ givenMessage m = message := by
  simp only [mismatchMessage, bind_eq_ok_iff, ensure_eq_ok_iff, messageOf_eq_ok_iff, List.contains_iff_mem,
    Bool.not_eq_true']
  constructor
  · intro h'
    obtain ⟨_, ha, _, hs, hm⟩ := h'
    exact ⟨ha, hs, hm⟩
  · intro h'
    obtain ⟨ha, hs, hm⟩ := h'
    exact ⟨(), ha, (), hs, hm⟩

/-- What mismatch rules contribute to their container: at most one may stand there, and its message is used. -/
def MismatchBuilds (allowed : List RuleKind) (seen : Bool) : List Value → Option String → Prop
  | [], message => message = none
  | [m], message => mismatchMessage allowed seen m = .ok message
  | _, _ => False

theorem mismatchBuilds_seen_iff {allowed : List RuleKind} {ms : List Value} {message : Option String} :
    MismatchBuilds allowed true ms message ↔ ms = [] ∧ message = none := by
  match ms with
  | [] => simp [MismatchBuilds]
  | [m] => simp [MismatchBuilds, mismatchMessage_eq_ok_iff]
  | _ :: _ :: _ => simp [MismatchBuilds]

theorem mismatchBuilds_cons_iff {allowed : List RuleKind} {seen : Bool} {m : Value} {ms : List Value}
    {message : Option String} :
    MismatchBuilds allowed seen (m :: ms) message ↔
      mismatchMessage allowed seen m = .ok message ∧ MismatchBuilds allowed true ms none := by
  rw [mismatchBuilds_seen_iff]
  match ms with
  | [] => simp [MismatchBuilds]
  | _ :: _ => simp [MismatchBuilds]

theorem mismatchBuilds_of_not_mem {allowed : List RuleKind} {ms : List Value} {message : Option String}
    (ha : .mismatch ∉ allowed) : MismatchBuilds allowed false ms message ↔ ms = [] ∧ message = none := by
  match ms with
  | [] => simp [MismatchBuilds]
  | [m] => simp [MismatchBuilds, mismatchMessage_eq_ok_iff, ha]
  | _ :: _ :: _ => simp [MismatchBuilds]

theorem alternativesIn_eq_ok_iff {parent : Option RuleKind} {kinds : List RuleKind} :
    alternativesIn parent = .ok kinds ↔
      ∃ p, parent = some (.container p) ∧ RuleKind.hasAlternatives p = true ∧ kinds = RuleKind.alternativesOf p := by
  unfold alternativesIn
  split
  · next p =>
    by_cases hp : RuleKind.hasAlternatives p = true
    · simp only [hp, if_true, Except.ok.injEq]
      constructor
      · intro h'
        subst h'
        exact ⟨p, rfl, hp, rfl⟩
      · intro h'
        obtain ⟨_, h, -, rfl⟩ := h'
        cases h
        rfl
    · rw [if_neg hp]
      simp only [fault_ne_ok, false_iff, not_exists, not_and]
      intro q h hq
      cases h
      exact absurd hq hp
  · next hp =>
    simp only [fault_ne_ok, false_iff, not_exists, not_and]
    exact fun p h => absurd h (hp p)

theorem propName_eq_ok_iff {v : Value} {key : Key} :
    propName v = .ok key ↔ v = key.toValue ∧ key ≠ .text "" := by
  unfold propName
  split
  · next s =>
    by_cases hs : s.isEmpty = true
    · have he : s = "" := String.isEmpty_iff.mp hs
      subst he
      simp only [hs, if_true, fault_ne_ok, false_iff, not_and]
      cases key with
      | text u => simp [Key.toValue, eq_comm]
      | index i => simp [Key.toValue]
    · have hne : s ≠ "" := fun h => hs (String.isEmpty_iff.mpr h)
      rw [if_neg hs, Except.ok.injEq]
      constructor
      · intro h'
        subst h'
        exact ⟨rfl, by simpa using hne⟩
      · intro h'
        obtain ⟨h, -⟩ := h'
        cases key with
        | text u => simpa [Key.toValue] using h
        | index i => simp [Key.toValue] at h
  · next i =>
    simp only [Except.ok.injEq]
    constructor
    · intro h'
      subst h'
      exact ⟨rfl, by simp⟩
    · intro h'
      obtain ⟨h, -⟩ := h'
      cases key with
      | text u => simp [Key.toValue] at h
      | index j => simpa [Key.toValue] using h
  · next hs hn =>
    simp only [fault_ne_ok, false_iff, not_and]
    intro h
    cases key with
    | text u => exact absurd h (hs u)
    | index j => exact absurd h (hn j)

/-! ### Kinds -/

variable [Text.CharacterNames]

/-- The kind of a tree is looked at before anything else. -/
theorem ofNode_eq_gate_bind (allowed : List RuleKind) (parent : Option RuleKind) (t : Tree) :
    ∃ f, ofNode allowed parent t = gate t allowed >>= f := by
  rw [ofNode.eq_def]
  cases t with
  | stray v => exact ⟨fun _ => fault .propName, rfl⟩
  | check c m => exact ⟨_, rfl⟩
  | group g row ts => exact ⟨_, rfl⟩
  | unlisted g rules => exact ⟨_, rfl⟩

theorem kind?_of_ofNode_eq_ok {allowed : List RuleKind} {parent : Option RuleKind} {t : Tree} {c : Validator}
    (h : ofNode allowed parent t = .ok c) : ∃ k ∈ allowed, t.kind? = some k := by
  obtain ⟨f, hf⟩ := ofNode_eq_gate_bind allowed parent t
  rw [hf] at h
  simp only [bind_eq_ok_iff, gate_eq_ok_iff] at h
  obtain ⟨k, ⟨hk, ha⟩, -⟩ := h
  exact ⟨k, ha, hk⟩

/-! ### Rows of children -/

section Children

variable {allowed : List RuleKind} {parent : Option RuleKind} {owner : RuleKind} {i : Nat} {seen : Bool}

theorem ofChildren_cons {t : Tree} (h : t.isMismatch = false) (ts : List Tree) :
    ofChildren allowed parent owner i seen (t :: ts) = (do
      let check ← within (childStep owner i) (ofNode allowed parent t)
      let (checks, mismatch) ← ofChildren allowed parent owner (i + 1) seen ts
      return (check :: checks, mismatch)) := by
  rw [ofChildren]
  intro m hm
  subst hm
  cases h

/-- The children of a group are built one by one; of the mismatch rules among them only the message is left. -/
theorem ofChildren_eq_ok_iff {ts : List Tree} {checks : List Validator} {message : Option String} :
    ofChildren allowed parent owner i seen ts = .ok (checks, message) ↔
      List.Forall₂ (fun t c => ofNode allowed parent t = .ok c) (Tree.proper ts) checks ∧
        MismatchBuilds allowed seen (Tree.mismatches ts) message := by
  induction ts generalizing i seen checks message with
  | nil => simp [Tree.proper, Tree.mismatches, MismatchBuilds, eq_comm]
  | cons t ts ih =>
    cases hm : t.isMismatch with
    | true =>
      obtain ⟨m, rfl⟩ := Tree.eq_mismatch_of_isMismatch hm
      rw [ofChildren]
      simp only [bind_eq_ok_iff, within_eq_ok_iff, pure_eq_ok_iff, Prod.exists, ih, Tree.proper_mismatch,
        Tree.mismatches_mismatch, mismatchBuilds_cons_iff, mismatchBuilds_seen_iff, Prod.mk.injEq]
      constructor
      · intro h'
        obtain ⟨_, hmsg, _, _, ⟨hts, hms, -⟩, rfl, rfl⟩ := h'
        exact ⟨hts, hmsg, hms, trivial⟩
      · intro h'
        obtain ⟨hts, hmsg, hms, -⟩ := h'
        exact ⟨_, hmsg, _, _, ⟨hts, hms, rfl⟩, rfl, rfl⟩
    | false =>
      rw [ofChildren_cons hm, Tree.proper_cons hm, Tree.mismatches_cons hm, List.forall₂_cons_left_iff]
      simp only [bind_eq_ok_iff, within_eq_ok_iff, pure_eq_ok_iff, Prod.exists, ih, Prod.mk.injEq]
      constructor
      · intro h'
        obtain ⟨c, hc, cs, _, ⟨hts, hms⟩, rfl, rfl⟩ := h'
        exact ⟨⟨c, cs, hc, hts, rfl⟩, hms⟩
      · intro h'
        obtain ⟨⟨c, cs, hc, hts, rfl⟩, hms⟩ := h'
        exact ⟨c, hc, cs, _, ⟨hts, hms⟩, rfl, rfl⟩

end Children

section Branches

variable {i : Nat} {seen : Bool} {declared : List Primitive}

theorem ofUnion_cons {t : Tree} {p : Primitive} (h : t.kind? = some (.container p)) (ts : List Tree) :
    ofUnion i seen declared (t :: ts) = (do
      let branch ← within (childStep .union i) (ofNode RuleKind.values (some .union) t)
      within (childStep .union i) (ensure (!declared.contains p) (.duplicateType p))
      let (branches, mismatch) ← ofUnion (i + 1) seen (p :: declared) ts
      return ((p, branch) :: branches, mismatch)) := by
  rw [ofUnion]
  · simp only [h]
  · intro m hm
    subst hm
    cases h

theorem ofUnion_of_error {t : Tree} {b : BuildError} (ht : t.isMismatch = false)
    (h : ofNode RuleKind.values (some .union) t = .error b) (ts : List Tree) :
    ofUnion i seen declared (t :: ts) = within (childStep .union i) (.error b) := by
  rw [ofUnion, h]
  · rfl
  · intro m hm
    subst hm
    cases ht

def BuildsBranch (t : Tree) (b : Primitive × Validator) : Prop :=
  t.kind? = some (.container b.1) ∧ ofNode RuleKind.values (some .union) t = .ok b.2

/-- The branches of a union are containers of different kinds, built one by one. -/
theorem ofUnion_eq_ok_iff {ts : List Tree} {branches : List (Primitive × Validator)} {message : Option String} :
    ofUnion i seen declared ts = .ok (branches, message) ↔
      List.Forall₂ BuildsBranch (Tree.proper ts) branches ∧ (branches.map Prod.fst).Nodup ∧
        (∀ p ∈ branches.map Prod.fst, p ∉ declared) ∧ MismatchBuilds [.mismatch] seen (Tree.mismatches ts) message := by
  induction ts generalizing i seen declared branches message with
  | nil =>
    rw [ofUnion_nil, Tree.proper, Tree.mismatches, List.filter_nil, List.filterMap_nil, List.forall₂_nil_left_iff]
    constructor
    · intro h
      cases h
      exact ⟨rfl, List.nodup_nil, by simp, rfl⟩
    · intro h'
      obtain ⟨rfl, -, -, hms⟩ := h'
      cases hms
      rfl
  | cons t ts ih =>
    cases hm : t.isMismatch with
    | true =>
      obtain ⟨m, rfl⟩ := Tree.eq_mismatch_of_isMismatch hm
      rw [ofUnion]
      simp only [bind_eq_ok_iff, within_eq_ok_iff, pure_eq_ok_iff, Prod.exists, ih, Tree.proper_mismatch,
        Tree.mismatches_mismatch, mismatchBuilds_cons_iff, mismatchBuilds_seen_iff, Prod.mk.injEq]
      constructor
      · intro h'
        obtain ⟨_, hmsg, _, _, ⟨hts, hnd, hdecl, hms, -⟩, rfl, rfl⟩ := h'
        exact ⟨hts, hnd, hdecl, hmsg, hms, trivial⟩
      · intro h'
        obtain ⟨hts, hnd, hdecl, hmsg, hms, -⟩ := h'
        exact ⟨_, hmsg, _, _, ⟨hts, hnd, hdecl, hms, rfl⟩, rfl, rfl⟩
    | false =>
      rw [Tree.proper_cons hm, Tree.mismatches_cons hm, List.forall₂_cons_left_iff]
      constructor
      · intro h
        obtain ⟨c, hc⟩ : ∃ c, ofNode RuleKind.values (some .union) t = .ok c := by
          rw [ofUnion] at h
          · simp only [bind_eq_ok_iff, within_eq_ok_iff] at h
            exact ⟨h.choose, h.choose_spec.1⟩
          · intro m ht
            subst ht
            cases hm
        obtain ⟨k, hk, hkind⟩ := kind?_of_ofNode_eq_ok hc
        obtain ⟨p, rfl⟩ := RuleKind.mem_values.mp hk
        rw [ofUnion_cons hkind] at h
        simp only [bind_eq_ok_iff, within_eq_ok_iff, ensure_eq_ok_iff, pure_eq_ok_iff, Prod.exists, ih,
          Bool.not_eq_true', List.contains_eq_mem, decide_eq_false_iff_not, Prod.mk.injEq] at h
        obtain ⟨d, hd, _, hp, bs, _, ⟨hts, hnd, hdecl, hms⟩, rfl, rfl⟩ := h
        refine ⟨⟨(p, d), bs, ⟨hkind, hd⟩, hts, rfl⟩, ?_, ?_, hms⟩
        · rw [List.map_cons, List.nodup_cons]
          exact ⟨fun h => hdecl p h List.mem_cons_self, hnd⟩
        · rw [List.map_cons, List.forall_mem_cons]
          exact ⟨hp, fun q hq h => hdecl q hq (List.mem_cons_of_mem _ h)⟩
      · intro h'
        obtain ⟨⟨⟨p, d⟩, bs, ⟨hkind, hd⟩, hts, rfl⟩, hnd, hdecl, hms⟩ := h'
        rw [List.map_cons, List.nodup_cons] at hnd
        rw [List.map_cons, List.forall_mem_cons] at hdecl
        rw [ofUnion_cons hkind]
        simp only [bind_eq_ok_iff, within_eq_ok_iff, ensure_eq_ok_iff, pure_eq_ok_iff, Prod.exists, ih,
          Bool.not_eq_true', List.contains_eq_mem, decide_eq_false_iff_not, Prod.mk.injEq]
        refine ⟨d, hd, (), hdecl.1, bs, message, ⟨hts, hnd.2, ?_, hms⟩, rfl, rfl⟩
        intro q hq hmem
        rcases List.mem_cons.mp hmem with rfl | hmem
        · exact hnd.1 hq
        · exact hdecl.2 q hq hmem

end Branches

/-! ### Groups -/

section Groups

variable {allowed : List RuleKind} {parent : Option RuleKind} {t : Tree} {ts : List Tree} {c : Validator}

/-- A group means the same whether its children are a fixed row, a list, or, where there are none, null. -/
theorem ofNode_of_comprises {g : Group} (h : t.Comprises g ts) (allowed : List RuleKind)
    (parent : Option RuleKind) : ofNode allowed parent t = ofNode allowed parent (.group g .fixed ts) := by
  cases h with
  | group row => cases g <;> rw [ofNode.eq_def, ofNode.eq_def] <;> rfl
  | unlisted => cases g <;> rw [ofNode.eq_def, ofNode.eq_def] <;> rfl

theorem ofNode_stray_ne_ok (v : Value) : ofNode allowed parent (.stray v) ≠ .ok c := by
  rw [ofNode_stray]
  exact fault_ne_ok

theorem ofNode_kindless_ne_ok {name : String} (h : t.Comprises (.kindless name) ts) :
    ofNode allowed parent t ≠ .ok c := by
  intro hc
  obtain ⟨k, -, hk⟩ := kind?_of_ofNode_eq_ok hc
  rw [h.kind?] at hk
  cases hk

theorem ofNode_unlisted_ne_ok {g : Group} {rules : Value} (h : rules ≠ .null) :
    ofNode allowed parent (.unlisted g rules) ≠ .ok c := by
  rw [ofNode]
  simp only [ne_eq, bind_eq_ok_iff, not_exists, not_and]
  intro k _
  unfold ofUnlisted
  split
  · exact absurd rfl h
  · split
    · simp only [bind_eq_ok_iff, not_exists, not_and]
      exact fun _ _ => fault_ne_ok
    · exact fault_ne_ok

theorem ofNode_check_eq_ok_iff {k : Check} {m : Value} :
    ofNode allowed parent (.check k m) = .ok c ↔
      (∃ j ∈ allowed, k.kind? = some j) ∧ ofCheck k m parent = .ok c := by
  rw [ofNode_check]
  simp only [bind_eq_ok_iff, gate_eq_ok_iff, Tree.kind?]
  constructor
  · intro h'
    obtain ⟨j, ⟨hk, hj⟩, hc⟩ := h'
    exact ⟨⟨j, hj, hk⟩, hc⟩
  · intro h'
    obtain ⟨⟨j, hj, hk⟩, hc⟩ := h'
    exact ⟨j, ⟨hk, hj⟩, hc⟩

theorem ofNode_container_eq_ok_iff {p : Primitive} (h : t.Comprises (.container p) ts) :
    ofNode allowed parent t = .ok c ↔
      .container p ∈ allowed ∧ ∃ checks message,
        List.Forall₂ (fun s d => ofNode (RuleKind.childrenOf p) (some (.container p)) s = .ok d) (Tree.proper ts) checks ∧
        MismatchBuilds (RuleKind.childrenOf p) false (Tree.mismatches ts) message ∧ c = .container p checks message := by
  rw [ofNode_of_comprises h, ofNode]
  simp only [bind_eq_ok_iff, gate_eq_ok_iff, pure_eq_ok_iff, Prod.exists, ofChildren_eq_ok_iff]
  constructor
  · intro h'
    obtain ⟨_, ⟨hk, ha⟩, checks, message, ⟨hts, hms⟩, rfl⟩ := h'
    cases hk
    exact ⟨ha, checks, message, hts, hms, rfl⟩
  · intro h'
    obtain ⟨ha, checks, message, hts, hms, rfl⟩ := h'
    exact ⟨_, ⟨rfl, ha⟩, checks, message, ⟨hts, hms⟩, rfl⟩

theorem ofNode_union_eq_ok_iff (h : t.Comprises .union ts) :
    ofNode allowed parent t = .ok c ↔
      .union ∈ allowed ∧ ∃ branches message, List.Forall₂ BuildsBranch (Tree.proper ts) branches ∧
        (branches.map Prod.fst).Nodup ∧ MismatchBuilds [.mismatch] false (Tree.mismatches ts) message ∧
        2 ≤ branches.length ∧ c = .union branches message := by
  rw [ofNode_of_comprises h, ofNode]
  simp only [bind_eq_ok_iff, gate_eq_ok_iff, pure_eq_ok_iff, Prod.exists, ofUnion_eq_ok_iff, ofBranches,
    ensure_eq_ok_iff, decide_eq_true_eq]
  constructor
  · intro h'
    obtain ⟨_, ⟨hk, ha⟩, branches, message, ⟨hts, hnd, -, hms⟩, _, hlen, rfl⟩ := h'
    cases hk
    exact ⟨ha, branches, message, hts, hnd, hms, hlen, rfl⟩
  · intro h'
    obtain ⟨ha, branches, message, hts, hnd, hms, hlen, rfl⟩ := h'
    exact ⟨_, ⟨rfl, ha⟩, branches, message, ⟨hts, hnd, by simp, hms⟩, (), hlen, rfl⟩

theorem ofNode_any_eq_ok_iff (h : t.Comprises .any ts) :
    ofNode allowed parent t = .ok c ↔
      .any ∈ allowed ∧ ∃ p alternatives, parent = some (.container p) ∧ RuleKind.hasAlternatives p = true ∧
        Tree.mismatches ts = [] ∧
        List.Forall₂ (fun s d => ofNode (RuleKind.alternativesOf p) (some (.container p)) s = .ok d) ts alternatives ∧
        2 ≤ alternatives.length ∧ c = .any alternatives := by
  rw [ofNode_of_comprises h, ofNode]
  simp only [bind_eq_ok_iff, gate_eq_ok_iff, pure_eq_ok_iff, Prod.exists, ofChildren_eq_ok_iff, ofAlternatives,
    ensure_eq_ok_iff, decide_eq_true_eq, alternativesIn_eq_ok_iff]
  constructor
  · intro h'
    obtain ⟨_, ⟨hk, ha⟩, _, ⟨p, rfl, hp, rfl⟩, alternatives, message, ⟨hts, hms⟩, _, hlen, rfl⟩ := h'
    cases hk
    obtain ⟨hms, -⟩ := (mismatchBuilds_of_not_mem (RuleKind.mismatch_not_mem_alternativesOf p)).mp hms
    rw [Tree.proper_eq_self hms] at hts
    exact ⟨ha, p, alternatives, rfl, hp, hms, hts, hlen, rfl⟩
  · intro h'
    obtain ⟨ha, p, alternatives, rfl, hp, hms, hts, hlen, rfl⟩ := h'
    refine ⟨_, ⟨rfl, ha⟩, _, ⟨p, rfl, hp, rfl⟩, alternatives, none, ⟨?_, ?_⟩, (), hlen, rfl⟩
    · rwa [Tree.proper_eq_self hms]
    · exact (mismatchBuilds_of_not_mem (RuleKind.mismatch_not_mem_alternativesOf p)).mpr ⟨hms, rfl⟩

/-! ### Binders -/

theorem isRule_of_ofNode_eq_ok (h : ofNode allowed parent t = .ok c) : t.isRule = true := by
  cases t with
  | stray v => exact absurd h (ofNode_stray_ne_ok v)
  | _ => rfl

theorem ofNode_prop_eq_ok_iff {name : Value} (h : t.Comprises (.prop name) ts) :
    ofNode allowed parent t = .ok c ↔
      .prop ∈ allowed ∧ ∃ s key inner, ts = [s] ∧ propName name = .ok key ∧
        ofNode RuleKind.bindable (some .prop) s = .ok inner ∧ c = .prop key inner := by
  rw [ofNode_of_comprises h]
  match ts with
  | [s] =>
    rw [ofNode]
    simp only [bind_eq_ok_iff, gate_eq_ok_iff, ensure_eq_ok_iff, within_eq_ok_iff, pure_eq_ok_iff,
      List.cons.injEq, and_true]
    constructor
    · intro h'
      obtain ⟨_, ⟨hk, ha⟩, _, -, key, hkey, inner, hs, rfl⟩ := h'
      cases hk
      exact ⟨ha, s, key, inner, rfl, hkey, hs, rfl⟩
    · intro h'
      obtain ⟨ha, _, key, inner, rfl, hkey, hs, rfl⟩ := h'
      exact ⟨_, ⟨rfl, ha⟩, (), isRule_of_ofNode_eq_ok hs, key, hkey, inner, hs, rfl⟩
  | [] =>
    rw [ofNode]
    · simp [bind_eq_ok_iff, fault_ne_ok]
    · simp
  | _ :: _ :: _ =>
    rw [ofNode]
    · simp [bind_eq_ok_iff, fault_ne_ok]
    · simp

theorem ofNode_item_eq_ok_iff (h : t.Comprises .item ts) :
    ofNode allowed parent t = .ok c ↔
      .item ∈ allowed ∧ ∃ s inner, ts = [s] ∧ ofNode RuleKind.bindable (some .item) s = .ok inner ∧
        c = .item inner := by
  rw [ofNode_of_comprises h]
  match ts with
  | [s] =>
    rw [ofNode]
    simp only [bind_eq_ok_iff, gate_eq_ok_iff, ensure_eq_ok_iff, within_eq_ok_iff, pure_eq_ok_iff,
      List.cons.injEq, and_true]
    constructor
    · intro h'
      obtain ⟨_, ⟨hk, ha⟩, _, -, inner, hs, rfl⟩ := h'
      cases hk
      exact ⟨ha, s, inner, rfl, hs, rfl⟩
    · intro h'
      obtain ⟨ha, _, inner, rfl, hs, rfl⟩ := h'
      exact ⟨_, ⟨rfl, ha⟩, (), isRule_of_ofNode_eq_ok hs, inner, hs, rfl⟩
  | [] =>
    rw [ofNode]
    · simp [bind_eq_ok_iff, fault_ne_ok]
    · simp
  | _ :: _ :: _ =>
    rw [ofNode]
    · simp [bind_eq_ok_iff, fault_ne_ok]
    · simp

theorem ofNode_required_eq_ok_iff {m : Value} (h : t.Comprises (.required m) ts) :
    ofNode allowed parent t = .ok c ↔
      .required ∈ allowed ∧ IsMessage m ∧
        ((ts = [] ∧ c = .required none (givenMessage m)) ∨
          ∃ s inner, ts = [s] ∧ ofNode RuleKind.wrappable (some .required) s = .ok inner ∧
            c = .required (some inner) (givenMessage m)) := by
  rw [ofNode_of_comprises h]
  match ts with
  | [] =>
    rw [ofNode]
    simp only [bind_eq_ok_iff, gate_eq_ok_iff, ofEmpty, map_eq_ok_iff, messageOf_eq_ok_iff]
    constructor
    · intro h'
      obtain ⟨_, ⟨hk, ha⟩, _, ⟨hm, rfl⟩, rfl⟩ := h'
      cases hk
      exact ⟨ha, hm, .inl ⟨trivial, rfl⟩⟩
    · intro h'
      obtain ⟨ha, hm, ⟨-, rfl⟩ | ⟨_, _, h, -⟩⟩ := h'
      · exact ⟨_, ⟨rfl, ha⟩, _, ⟨hm, rfl⟩, rfl⟩
      · cases h
  | [s] =>
    rw [ofNode]
    simp only [bind_eq_ok_iff, gate_eq_ok_iff, within_eq_ok_iff, pure_eq_ok_iff, messageOf_eq_ok_iff]
    constructor
    · intro h'
      obtain ⟨_, ⟨hk, ha⟩, inner, hs, _, ⟨hm, rfl⟩, rfl⟩ := h'
      cases hk
      exact ⟨ha, hm, .inr ⟨s, inner, rfl, hs, rfl⟩⟩
    · intro h'
      obtain ⟨ha, hm, ⟨h, -⟩ | ⟨_, inner, h, hs, rfl⟩⟩ := h'
      · cases h
      · cases h
        exact ⟨_, ⟨rfl, ha⟩, inner, hs, _, ⟨hm, rfl⟩, rfl⟩
  | _ :: _ :: _ =>
    rw [ofNode]
    · simp [bind_eq_ok_iff, fault_ne_ok]
    · simp
    · simp

theorem leaf_or_group_of_ofNode_eq_ok (h : ofNode allowed parent t = .ok c) :
    (∃ k m, t = .check k m) ∨ ∃ g ts, t.Comprises g ts := by
  cases t with
  | stray v => exact absurd h (ofNode_stray_ne_ok v)
  | check k m => exact .inl ⟨k, m, rfl⟩
  | group g row ts => exact .inr ⟨g, ts, .group g row ts⟩
  | unlisted g rules =>
    by_cases hr : rules = .null
    · subst hr
      exact .inr ⟨g, [], .unlisted g⟩
    · exact absurd h (ofNode_unlisted_ne_ok hr)

theorem container_of_buildsBranch {b : Primitive × Validator} (h : BuildsBranch t b) :
    ∃ checks message, b.2 = .container b.1 checks message := by
  obtain ⟨hk, hb⟩ := h
  rcases leaf_or_group_of_ofNode_eq_ok hb with ⟨k, m, rfl⟩ | ⟨g, ts, hg⟩
  · cases k <;> cases hk
  · rw [hg.kind?] at hk
    cases g with
    | container p =>
      cases hk
      obtain ⟨-, checks, message, -, -, hc⟩ := (ofNode_container_eq_ok_iff hg).mp hb
      exact ⟨checks, message, hc⟩
    | _ => cases hk

end Groups

/- Induction over trees that may have a validator. A tree that has none anywhere is one case; the others are a leaf, and one
for each sort of group, however its children are written. -/
@[elab_as_elim]
theorem built_induct {motive : Tree → Prop}
    (faulty : ∀ t, (∀ allowed parent c, ofNode allowed parent t ≠ .ok c) → motive t)
    (check : ∀ k m, motive (.check k m))
    (any : ∀ t ts, t.Comprises .any ts → (∀ s ∈ ts, motive s) → motive t)
    (union : ∀ t ts, t.Comprises .union ts → (∀ s ∈ ts, motive s) → motive t)
    (container : ∀ p t ts, t.Comprises (.container p) ts → (∀ s ∈ ts, motive s) → motive t)
    (prop : ∀ name t ts, t.Comprises (.prop name) ts → (∀ s ∈ ts, motive s) → motive t)
    (item : ∀ t ts, t.Comprises .item ts → (∀ s ∈ ts, motive s) → motive t)
    (required : ∀ m t ts, t.Comprises (.required m) ts → (∀ s ∈ ts, motive s) → motive t) (t : Tree) : motive t := by
  have group : ∀ g t ts, t.Comprises g ts → (∀ s ∈ ts, motive s) → motive t := by
    intro g t ts h hts
    cases g with
    | any => exact any t ts h hts
    | union => exact union t ts h hts
    | container p => exact container p t ts h hts
    | prop name => exact prop name t ts h hts
    | item => exact item t ts h hts
    | required m => exact required m t ts h hts
    | kindless name => exact faulty t fun _ _ _ => ofNode_kindless_ne_ok h
  induction t using Tree.induct with
  | stray v => exact faulty _ fun _ _ _ => ofNode_stray_ne_ok v
  | check k m => exact check k m
  | unlisted g rules =>
    by_cases hr : rules = .null
    · subst hr
      exact group g _ [] (.unlisted g) (List.forall_mem_nil _)
    · exact faulty _ fun _ _ _ => ofNode_unlisted_ne_ok hr
  | group g row ts ih => exact group g _ ts (.group g row ts) ih

end RuleTree.Validator
