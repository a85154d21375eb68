import RuleTree.Proofs.Build.Nodes
import RuleTree.Proofs.Calendar.RoundTrip
import RuleTree.Proofs.Rule.Fields
import RuleTree.Proofs.Rule.Grammar

/-!
# Validators of trees that are read again

Writing turns dates into texts. The validator of the tree that is read back is the same exactly if every moment in the tree
is still at its millisecond when its text is read.
-/

namespace RuleTree

open Document (written)

/-! ### Values -/

/-- Whether the text of a value, should it be a moment, is read at the same millisecond. -/
def Value.Faithful : Value → Prop
  | .moment m => m.Faithful
  | _ => True

theorem Value.stamp?_written_iff {v : Value} : (written v).stamp? = v.stamp? ↔ v.Faithful := by
  cases v with
  | date d =>
    have hwritten : (written (.date d)).stamp? = some d.stamp := by
      rw [written, stamp?, moment?, read?_date, Option.map_some, Moment.stamp_atMidnight]
    rw [hwritten, stamp?_date]
    exact iff_of_true rfl trivial
  | moment m =>
    have hwritten : (written (.moment m)).stamp? = some m.reread.stamp := by
      rw [written, stamp?, moment?, read?_iso, Option.map_some]
    have hstamp : (Value.moment m).stamp? = some m.stamp := by
      rw [stamp?, moment?, Option.map_some, Moment.stamp, Moment.instant_withZone, Moment.stamp]
    rw [hwritten, hstamp, Option.some.injEq, Moment.stamp_reread_iff]
    exact Iff.rfl
  | _ => exact iff_of_true rfl trivial

theorem Value.displayDate_written (v : Value) : (written v).displayDate = v.displayDate := by
  cases v <;> rfl

theorem Value.faithful_of_kind_ne {v : Value} (h : v.kind ≠ .primitive .date) : written v = v ∧ v.Faithful := by
  cases v with
  | date d => exact absurd rfl h
  | moment m => exact absurd rfl h
  | _ => exact ⟨rfl, trivial⟩

theorem Value.faithful_of_number? {v : Value} {n : Number} (h : v.number? = some n) : written v = v ∧ v.Faithful := by
  obtain ⟨rfl, -⟩ := Value.number?_iff.mp h
  exact ⟨rfl, trivial⟩

namespace Validator

theorem written_of_isMessage {m : Value} (h : IsMessage m) : written m = m ∧ m.Faithful := by
  rcases h with rfl | ⟨s, rfl⟩
  · exact ⟨rfl, trivial⟩
  · exact ⟨rfl, trivial⟩

theorem written_of_propName {v : Value} {key : Key} (h : propName v = .ok key) : written v = v ∧ v.Faithful := by
  obtain ⟨rfl, -⟩ := propName_eq_ok_iff.mp h
  cases key with
  | text s => exact ⟨rfl, trivial⟩
  | index i => exact ⟨rfl, trivial⟩

/-! ### Leaves -/

section Leaves

variable {p : Primitive} {m : Value} {c : Validator}

theorem ofEqual_reread_iff {v : Value} (hc : ofEqual v m (some (.container p)) = .ok c) :
    ofEqual (written v) m (some (.container p)) = .ok c ↔ v.Faithful := by
  by_cases hp : p = .date
  · subst hp
    obtain ⟨stamp, hs, hm, rfl⟩ := ofEqual_date_eq_ok_iff.mp hc
    rw [← Value.stamp?_written_iff, hs, ofEqual_date_eq_ok_iff, Value.displayDate_written]
    constructor
    · intro h'
      obtain ⟨stamp', hs', -, heq⟩ := h'
      cases heq
      exact hs'
    · intro h
      exact ⟨stamp, h, hm, rfl⟩
  · obtain ⟨hk, -, -, -⟩ := (ofEqual_eq_ok_iff hp).mp hc
    have hdate : v.kind ≠ .primitive .date := by
      intro h
      rw [hk] at h
      exact hp (Kind.primitive.inj h)
    obtain ⟨hv, hfaithful⟩ := Value.faithful_of_kind_ne hdate
    rw [hv]
    exact iff_of_true hc hfaithful

theorem ofDateBound_reread_iff {b : DateBound} {v : Value} (hc : ofDateBound b v m = .ok c) :
    ofDateBound b (written v) m = .ok c ↔ v.Faithful := by
  obtain ⟨stamp, hs, hm, rfl⟩ := ofDateBound_eq_ok_iff.mp hc
  rw [← Value.stamp?_written_iff, hs, ofDateBound_eq_ok_iff, Value.displayDate_written]
  constructor
  · intro h'
    obtain ⟨stamp', hs', -, heq⟩ := h'
    cases heq
    exact hs'
  · intro h
    exact ⟨stamp, h, hm, rfl⟩

theorem ofBetween_reread_iff {first last : Value} (hc : ofBetween first last m = .ok c) :
    ofBetween (written first) (written last) m = .ok c ↔ first.Faithful ∧ last.Faithful := by
  obtain ⟨begins, ends, hb, he, hlt, hm, rfl⟩ := ofBetween_eq_ok_iff.mp hc
  have hdisplay : betweenDisplay (written first) (written last) = betweenDisplay first last := by
    rw [betweenDisplay, betweenDisplay, Value.displayDate_written, Value.displayDate_written]
  rw [← Value.stamp?_written_iff, ← Value.stamp?_written_iff, hb, he, ofBetween_eq_ok_iff, hdisplay]
  constructor
  · intro h'
    obtain ⟨begins', ends', hb', he', -, -, heq⟩ := h'
    cases heq
    exact ⟨hb', he'⟩
  · intro h'
    obtain ⟨hb', he'⟩ := h'
    exact ⟨begins, ends, hb', he', hlt, hm, rfl⟩

variable [Text.CharacterNames]

/-- A leaf keeps its validator exactly if the moments in its fields keep their milliseconds. -/
theorem ofCheck_reread_iff {k : Check} (hc : ofCheck k m (some (.container p)) = .ok c) :
    ofCheck k.reread m (some (.container p)) = .ok c ↔ ∀ v ∈ k.fields, v.Faithful := by
  cases k with
  | equal v =>
    rw [Check.fields, List.forall_mem_singleton]
    exact ofEqual_reread_iff hc
  | bound b v =>
    obtain ⟨n, _, hn, -, -, -⟩ := ofBound_eq_ok_iff.mp hc
    obtain ⟨hv, hfaithful⟩ := Value.faithful_of_number? hn
    rw [Check.reread, hv, Check.fields, List.forall_mem_singleton]
    exact iff_of_true hc hfaithful
  | range min max =>
    obtain ⟨low, high, hl, hh, -, -, -⟩ := ofRange_eq_ok_iff.mp hc
    obtain ⟨hmin, hlow⟩ := Value.faithful_of_number? hl
    obtain ⟨hmax, hhigh⟩ := Value.faithful_of_number? hh
    rw [Check.reread, hmin, hmax, Check.fields, List.forall_mem_cons, List.forall_mem_singleton]
    exact iff_of_true hc ⟨hlow, hhigh⟩
  | pattern regex =>
    obtain ⟨literal, _, rfl, -, -, -⟩ := ofPattern_eq_ok_iff.mp hc
    rw [Check.fields, List.forall_mem_singleton]
    exact iff_of_true hc trivial
  | dateBound b v =>
    rw [Check.fields, List.forall_mem_singleton]
    exact ofDateBound_reread_iff hc
  | between first last =>
    rw [Check.fields, List.forall_mem_cons, List.forall_mem_singleton]
    exact ofBetween_reread_iff hc
  | mismatch => exact absurd hc fault_ne_ok
  | kindless name v => exact absurd hc fault_ne_ok

end Leaves

/-! ### Shapes -/

theorem comprises_reread {g : Group} {t : Tree} {ts : List Tree} (h : t.Comprises g ts) :
    t.reread.Comprises g.reread (ts.map Tree.reread) := by
  cases h with
  | group row =>
    rw [Tree.reread, Tree.rereadRow_eq_map]
    exact .group g.reread .fixed (ts.map Tree.reread)
  | unlisted => exact .unlisted g.reread

theorem isMismatch_reread (t : Tree) : t.reread.isMismatch = t.isMismatch := by
  cases t with
  | check c m => cases c <;> rfl
  | _ => rfl

theorem proper_reread (ts : List Tree) : Tree.proper (ts.map Tree.reread) = (Tree.proper ts).map Tree.reread := by
  unfold Tree.proper
  rw [List.filter_map]
  refine congrArg (List.map Tree.reread) (List.filter_congr ?_)
  intro t _
  simp only [Function.comp_apply, isMismatch_reread]

theorem mismatches_reread (ts : List Tree) :
    Tree.mismatches (ts.map Tree.reread) = (Tree.mismatches ts).map written := by
  induction ts with
  | nil => rfl
  | cons t ts ih =>
    rw [List.map_cons]
    cases hm : t.isMismatch with
    | true =>
      obtain ⟨m, rfl⟩ := Tree.eq_mismatch_of_isMismatch hm
      rw [Tree.mismatches_mismatch, List.map_cons, ← ih]
      rfl
    | false =>
      have hm' : t.reread.isMismatch = false := by rw [isMismatch_reread, hm]
      rw [Tree.mismatches_cons hm, Tree.mismatches_cons hm', ih]

theorem isMessage_of_mismatchBuilds {allowed : List RuleKind} {ms : List Value} {message : Option String}
    (h : MismatchBuilds allowed false ms message) : ∀ m ∈ ms, IsMessage m := by
  match ms, h with
  | [], _ => exact List.forall_mem_nil _
  | [m], h =>
    intro n hn
    obtain rfl := List.mem_singleton.mp hn
    obtain ⟨-, -, hm, -⟩ := mismatchMessage_eq_ok_iff.mp h
    exact hm

theorem mismatchBuilds_reread {allowed : List RuleKind} {ts : List Tree} {message : Option String}
    (h : MismatchBuilds allowed false (Tree.mismatches ts) message) :
    Tree.mismatches (ts.map Tree.reread) = Tree.mismatches ts := by
  rw [mismatches_reread]
  have hsame : ∀ m ∈ Tree.mismatches ts, written m = id m := fun m hm =>
    (written_of_isMessage (isMessage_of_mismatchBuilds h m hm)).1
  rw [List.map_congr_left hsame, List.map_id]

/-! ### Fields -/

theorem faithful_of_comprises {g : Group} {t : Tree} {ts : List Tree} (h : t.Comprises g ts) :
    (∀ v ∈ t.fields, v.Faithful) ↔ (∀ v ∈ g.fields, v.Faithful) ∧ ∀ s ∈ ts, ∀ v ∈ s.fields, v.Faithful := by
  cases h with
  | group row =>
    simp only [Tree.fields, List.forall_mem_append, Tree.mem_fieldsRow]
    refine and_congr_right fun _ => ⟨fun h s hs v hv => h v ⟨s, hs, hv⟩, fun h v hv => ?_⟩
    obtain ⟨s, hs, hv⟩ := hv
    exact h s hs v hv
  | unlisted =>
    rw [Tree.fields, List.forall_mem_cons]
    exact ⟨fun h => ⟨h.2, List.forall_mem_nil _⟩, fun h => ⟨trivial, h.1⟩⟩

theorem faithful_row_iff {allowed : List RuleKind} {ts : List Tree} {message : Option String}
    (h : MismatchBuilds allowed false (Tree.mismatches ts) message) :
    (∀ s ∈ ts, ∀ v ∈ s.fields, v.Faithful) ↔ ∀ s ∈ Tree.proper ts, ∀ v ∈ s.fields, v.Faithful := by
  constructor
  · intro hall s hs
    exact hall s (Tree.mem_proper.mp hs).1
  · intro hproper s hs
    rcases Tree.proper_or_mismatch_of_mem hs with hs | ⟨m, hm, rfl⟩
    · exact hproper s hs
    · intro v hv
      obtain rfl := List.mem_singleton.mp hv
      exact (written_of_isMessage (isMessage_of_mismatchBuilds h _ hm)).2

/-! ### Trees -/

section Trees

variable {t : Tree} {ts : List Tree}

variable [Text.CharacterNames]

/-- Wherever a tree may stand, it keeps its validator exactly if the moments in its fields keep their milliseconds. -/
def Rereads (t : Tree) : Prop :=
  ∀ {allowed : List RuleKind} {parent : Option RuleKind} {c : Validator} {place : Position},
    ofNode allowed parent t = .ok c → place.Governs allowed parent →
      (ofNode allowed parent t.reread = .ok c ↔ ∀ v ∈ t.fields, v.Faithful)

theorem rereads_check (k : Check) (m : Value) : Rereads (.check k m) := by
  intro allowed parent c place hc hplace
  obtain ⟨⟨j, ha, hk⟩, hd⟩ := ofNode_check_eq_ok_iff.mp hc
  obtain ⟨p, rfl⟩ := Position.exists_inside (hplace.1 j ha) (RuleKind.not_mem_bindable_of_check hk)
  obtain rfl := hplace.2 p rfl
  obtain ⟨hm, hmessage⟩ := written_of_isMessage (isMessage_of_ofCheck hd)
  have hkind : ∃ j ∈ allowed, k.reread.kind? = some j := ⟨j, ha, by rw [Check.kind?_reread, hk]⟩
  rw [Tree.reread, hm, ofNode_check_eq_ok_iff, Tree.fields, List.forall_mem_cons, ofCheck_reread_iff hd]
  exact ⟨fun h => ⟨hmessage, h.2⟩, fun h => ⟨hkind, h.2⟩⟩

theorem rereads_container {p : Primitive} (h : t.Comprises (.container p) ts) (ih : ∀ s ∈ ts, Rereads s) :
    Rereads t := by
  intro allowed parent c place hc _
  obtain ⟨ha, checks, message, hts, hms, rfl⟩ := (ofNode_container_eq_ok_iff h).mp hc
  have hchildren : List.Forall₂ (fun s d => ofNode (RuleKind.childrenOf p) (some (.container p)) s.reread = .ok d)
      (Tree.proper ts) checks ↔ ∀ s ∈ Tree.proper ts, ∀ v ∈ s.fields, v.Faithful :=
    forall₂_iff_of_forall₂ hts fun s hs d hd =>
      ih s (Tree.mem_proper.mp hs).1 hd (Position.governs_inside fun _ hk => hk)
  rw [ofNode_container_eq_ok_iff (comprises_reread h), proper_reread, mismatchBuilds_reread hms,
    faithful_of_comprises h, faithful_row_iff hms, ← hchildren]
  simp only [List.forall₂_map_left_iff]
  constructor
  · intro h'
    obtain ⟨-, checks', message', hts', -, heq⟩ := h'
    cases heq
    exact ⟨List.forall_mem_nil _, hts'⟩
  · intro h'
    obtain ⟨-, hts'⟩ := h'
    exact ⟨ha, checks, message, hts', hms, rfl⟩

theorem rereads_union (h : t.Comprises .union ts) (ih : ∀ s ∈ ts, Rereads s) : Rereads t := by
  intro allowed parent c place hc _
  obtain ⟨ha, branches, message, hts, hnodup, hms, hlen, rfl⟩ := (ofNode_union_eq_ok_iff h).mp hc
  have hbranches : List.Forall₂ (fun s b => BuildsBranch s.reread b) (Tree.proper ts) branches ↔
      ∀ s ∈ Tree.proper ts, ∀ v ∈ s.fields, v.Faithful := by
    refine forall₂_iff_of_forall₂ hts fun s hs b hb => ?_
    have hs := ih s (Tree.mem_proper.mp hs).1 hb.2 Position.governs_branch
    rw [BuildsBranch, Tree.kind?_reread]
    exact ⟨fun h => hs.mp h.2, fun h => ⟨hb.1, hs.mpr h⟩⟩
  have hunion := comprises_reread h
  rw [ofNode_union_eq_ok_iff hunion, proper_reread, mismatchBuilds_reread hms, faithful_of_comprises h,
    faithful_row_iff hms, ← hbranches]
  simp only [List.forall₂_map_left_iff]
  constructor
  · intro h'
    obtain ⟨-, branches', message', hts', -, -, -, heq⟩ := h'
    cases heq
    exact ⟨List.forall_mem_nil _, hts'⟩
  · intro h'
    obtain ⟨-, hts'⟩ := h'
    exact ⟨ha, branches, message, hts', hnodup, hms, hlen, rfl⟩

theorem rereads_any (h : t.Comprises .any ts) (ih : ∀ s ∈ ts, Rereads s) : Rereads t := by
  intro allowed parent c place hc _
  obtain ⟨ha, p, alternatives, rfl, hp, hms, hts, hlen, rfl⟩ := (ofNode_any_eq_ok_iff h).mp hc
  have hchildren : List.Forall₂ (fun s d => ofNode (RuleKind.alternativesOf p) (some (.container p)) s.reread = .ok d)
      ts alternatives ↔ ∀ s ∈ ts, ∀ v ∈ s.fields, v.Faithful :=
    forall₂_iff_of_forall₂ hts fun s hs d hd =>
      ih s hs hd (Position.governs_inside fun _ hk => RuleKind.alternatives_children hk)
  have hany := comprises_reread h
  have hms' : Tree.mismatches (ts.map Tree.reread) = [] := by
    rw [mismatches_reread, hms]
    rfl
  rw [ofNode_any_eq_ok_iff hany, faithful_of_comprises h, ← hchildren]
  simp only [List.forall₂_map_left_iff]
  constructor
  · intro h'
    obtain ⟨-, p', alternatives', hp', -, -, hts', -, heq⟩ := h'
    cases hp'
    cases heq
    exact ⟨List.forall_mem_nil _, hts'⟩
  · intro h'
    obtain ⟨-, hts'⟩ := h'
    exact ⟨ha, p, alternatives, rfl, hp, hms', hts', hlen, rfl⟩

theorem rereads_prop {name : Value} (h : t.Comprises (.prop name) ts) (ih : ∀ s ∈ ts, Rereads s) : Rereads t := by
  intro allowed parent c place hc _
  obtain ⟨ha, s, key, inner, rfl, hkey, hs, rfl⟩ := (ofNode_prop_eq_ok_iff h).mp hc
  obtain ⟨hname, hfaithful⟩ := written_of_propName hkey
  have hchild := ih s List.mem_cons_self hs Position.governs_value
  have hprop := comprises_reread h
  rw [Group.reread, hname] at hprop
  rw [ofNode_prop_eq_ok_iff hprop, faithful_of_comprises h, Group.fields, List.forall_mem_singleton,
    List.forall_mem_singleton, ← hchild]
  constructor
  · intro h'
    obtain ⟨-, s', key', inner', hlist, -, hs', heq⟩ := h'
    cases heq
    cases hlist
    exact ⟨hfaithful, hs'⟩
  · intro h'
    obtain ⟨-, hs'⟩ := h'
    exact ⟨ha, s.reread, key, inner, rfl, hkey, hs', rfl⟩

theorem rereads_item (h : t.Comprises .item ts) (ih : ∀ s ∈ ts, Rereads s) : Rereads t := by
  intro allowed parent c place hc _
  obtain ⟨ha, s, inner, rfl, hs, rfl⟩ := (ofNode_item_eq_ok_iff h).mp hc
  have hchild := ih s List.mem_cons_self hs Position.governs_value
  have hitem := comprises_reread h
  rw [ofNode_item_eq_ok_iff hitem, faithful_of_comprises h, List.forall_mem_singleton, ← hchild]
  constructor
  · intro h'
    obtain ⟨-, s', inner', hlist, hs', heq⟩ := h'
    cases heq
    cases hlist
    exact ⟨List.forall_mem_nil _, hs'⟩
  · intro h'
    obtain ⟨-, hs'⟩ := h'
    exact ⟨ha, s.reread, inner, rfl, hs', rfl⟩

theorem rereads_required {m : Value} (h : t.Comprises (.required m) ts) (ih : ∀ s ∈ ts, Rereads s) : Rereads t := by
  intro allowed parent c place hc _
  obtain ⟨ha, hm, hts⟩ := (ofNode_required_eq_ok_iff h).mp hc
  obtain ⟨hmessage, hfaithful⟩ := written_of_isMessage hm
  have hrequired := comprises_reread h
  rw [Group.reread, hmessage] at hrequired
  rw [ofNode_required_eq_ok_iff hrequired, faithful_of_comprises h, Group.fields, List.forall_mem_singleton]
  rcases hts with ⟨rfl, rfl⟩ | ⟨s, inner, rfl, hs, rfl⟩
  · exact iff_of_true ⟨ha, hm, .inl ⟨rfl, rfl⟩⟩ ⟨hfaithful, List.forall_mem_nil _⟩
  · have hchild := ih s List.mem_cons_self hs Position.governs_wrapped
    rw [List.forall_mem_singleton, ← hchild]
    constructor
    · intro h'
      obtain ⟨-, -, ⟨hlist, -⟩ | ⟨s', inner', hlist, hs', heq⟩⟩ := h'
      · cases hlist
      · cases heq
        cases hlist
        exact ⟨hfaithful, hs'⟩
    · intro h'
      obtain ⟨-, hs'⟩ := h'
      exact ⟨ha, hm, .inr ⟨s.reread, inner, rfl, hs', rfl⟩⟩

theorem rereads (t : Tree) : Rereads t := by
  induction t using built_induct with
  | faulty t h => exact fun hc => absurd hc (h _ _ _)
  | check k m => exact rereads_check k m
  | any t ts h ih => exact rereads_any h ih
  | union t ts h ih => exact rereads_union h ih
  | container p t ts h ih => exact rereads_container h ih
  | prop name t ts h ih => exact rereads_prop h ih
  | item t ts h ih => exact rereads_item h ih
  | required m t ts h ih => exact rereads_required h ih

end Trees

end Validator

end RuleTree
