import RuleTree.Proofs.Build.Nodes
import RuleTree.Proofs.Validator.Rejects
import RuleTree.Rule.Build
import RuleTree.Text.CommonNames

/-!
# Where a rejection comes from

The path of an error leads from the rejected value to a part of it, and from the tree to a rule that rejects this very part by
itself, in the same words. On the way, whatever was asked before has been accepted.
-/

namespace RuleTree

/-! ### Paths in values -/

/-- The part of a value at a location: what is absent from a mapping is null, and an element must exist. -/
def Value.step? (v : Value) (l : Location) : Option Value :=
  match l.place, l.key, v with
  | .property, key, .map es => some (Value.property key es)
  | .item, .index i, v => if 0 ≤ i then v.items?.bind fun items => items[i.toNat]? else none
  | _, _, _ => none

/-- The part of a value at the end of a path. -/
def Value.follow? (v : Value) : List Location → Option Value
  | [] => some v
  | l :: path => (v.step? l).bind fun w => w.follow? path

theorem Value.step?_property (key : Key) (es : List (Value × Value)) :
    (Value.map es).step? ⟨.property, key⟩ = some (Value.property key es) := by
  cases key <;> rfl

theorem Value.step?_item {v : Value} {items : List Value} (h : v.items? = some items) (i : Nat) :
    v.step? ⟨.item, .index i⟩ = items[i]? := by
  have hi : (0 : Int) ≤ i := Int.natCast_nonneg i
  have hstep : v.step? ⟨.item, .index i⟩ =
      if (0 : Int) ≤ i then v.items?.bind fun items => items[(i : Int).toNat]? else none := by
    cases v <;> rfl
  rw [hstep, if_pos hi, h]
  rfl

/-! ### Paths in trees -/

namespace Tree

variable [Text.CharacterNames]

/-- Whether the validator of a tree accepts a value. -/
def Accepts (t : Tree) (v : Value) : Prop := ∃ c, Validator.ofTree t = .ok c ∧ c.accepts v = true

/-- Whether the validator of a tree, as a child of a container, accepts a value. -/
def AcceptsInside (t : Tree) (p : Primitive) (v : Value) : Prop :=
  ∃ c, Validator.ofNode (RuleKind.childrenOf p) (some (.container p)) t = .ok c ∧ c.accepts v = true

/-- Whether the validator of a tree rejects a value for a cause of the value as a whole. -/
def Rejects (t : Tree) (v : Value) (cause : Cause) : Prop :=
  ∃ c, Validator.ofTree t = .ok c ∧ c.run v = .error (.invalid { cause := cause, path := [] })

/-- The way from a rule and a value along a path to a rule inside and a part of the value. Each property is taken through the
rule of that property, each element through an item rule that accepts the elements before, and each container is passed behind
children that accept. -/
inductive Leads : Tree → Value → List Location → Tree → Value → Prop
  | here {t : Tree} {v : Value} : Leads t v [] t v
  | required {m : Value} {s t u : Tree} {v w : Value} {path : List Location} (h : t.Comprises (.required m) [s])
      (hs : Leads s v path u w) : Leads t v path u w
  | union {s t u : Tree} {ts : List Tree} {v w : Value} {path : List Location} (h : t.Comprises .union ts)
      (hmem : s ∈ proper ts) (hs : Leads s v path u w) : Leads t v path u w
  | child {p : Primitive} {s t u : Tree} {before after : List Tree} {v w : Value} {path : List Location}
      (h : t.Comprises (.container p) (before ++ s :: after)) (hbefore : ∀ r ∈ proper before, r.AcceptsInside p v)
      (hs : Leads s v path u w) : Leads t v path u w
  | property {key : Key} {s t u : Tree} {es : List (Value × Value)} {w : Value} {path : List Location}
      (h : t.Comprises (.prop key.toValue) [s]) (hs : Leads s (Value.property key es) path u w) :
      Leads t (.map es) (⟨.property, key⟩ :: path) u w
  | element {s t u : Tree} {v x w : Value} {items : List Value} {i : Nat} {path : List Location}
      (h : t.Comprises .item [s]) (hitems : v.items? = some items) (hx : items[i]? = some x)
      (hbefore : ∀ y ∈ items.take i, s.Accepts y) (hs : Leads s x path u w) :
      Leads t v (⟨.item, .index i⟩ :: path) u w

theorem Leads.follow? {t s : Tree} {v w : Value} {path : List Location} (h : Leads t v path s w) :
    v.follow? path = some w := by
  induction h with
  | here => rfl
  | required _ _ ih => exact ih
  | union _ _ _ ih => exact ih
  | child _ _ _ ih => exact ih
  | property _ _ ih =>
    rw [Value.follow?, Value.step?_property, Option.bind_some]
    exact ih
  | element _ hitems hx _ _ ih =>
    rw [Value.follow?, Value.step?_item hitems, hx, Option.bind_some]
    exact ih

end Tree

namespace Validator

/-! ### Rows of children -/

theorem split_of_proper {ts : List Tree} {xs ys : List Tree} {s : Tree} (h : Tree.proper ts = xs ++ s :: ys) :
    ∃ before after, ts = before ++ s :: after ∧ Tree.proper before = xs := by
  obtain ⟨first, rest, rfl, hfirst, hrest⟩ := List.filter_eq_append_iff.mp h
  obtain ⟨between, after, rfl, hbetween, -, -⟩ := List.filter_eq_cons_iff.mp hrest
  refine ⟨first ++ between, after, by simp, ?_⟩
  have hnone : Tree.proper between = [] := List.filter_eq_nil_iff.mpr hbetween
  have happend : Tree.proper (first ++ between) = Tree.proper first ++ Tree.proper between := List.filter_append ..
  rw [happend, hnone, List.append_nil]
  exact hfirst

/-! ### Trees -/

section Trees

variable {allowed : List RuleKind} {parent : Option RuleKind} {t : Tree} {ts : List Tree} {c : Validator}

variable [Text.CharacterNames]

/-- What may be bound to a value has the same validator everywhere. -/
theorem ofTree_eq_ok_of_bindable (h : ofNode allowed parent t = .ok c) (ha : ∀ k ∈ allowed, k ∈ RuleKind.bindable) :
    ofTree t = .ok c := by
  obtain ⟨k, hk, hkind⟩ := kind?_of_ofNode_eq_ok h
  rcases leaf_or_group_of_ofNode_eq_ok h with ⟨l, m, rfl⟩ | ⟨g, ts, hg⟩
  · exact absurd (ha k hk) (RuleKind.not_mem_bindable_of_check hkind)
  · rw [hg.kind?] at hkind
    cases g with
    | union =>
      obtain ⟨hu, hc⟩ := (ofNode_union_eq_ok_iff hg).mp h
      exact (ofNode_union_eq_ok_iff hg).mpr ⟨ha _ hu, hc⟩
    | container p =>
      obtain ⟨hp, hc⟩ := (ofNode_container_eq_ok_iff hg).mp h
      exact (ofNode_container_eq_ok_iff hg).mpr ⟨ha _ hp, hc⟩
    | required m =>
      obtain ⟨hr, hc⟩ := (ofNode_required_eq_ok_iff hg).mp h
      exact (ofNode_required_eq_ok_iff hg).mpr ⟨ha _ hr, hc⟩
    | kindless name => cases hkind
    | any =>
      cases hkind
      exact absurd (ha _ hk) (by decide)
    | prop name =>
      cases hkind
      exact absurd (ha _ hk) (by decide)
    | item =>
      cases hkind
      exact absurd (ha _ hk) (by decide)

/-- Every error of a tree, wherever the tree stands, is about the whole value or leads to a rule inside. -/
def Located (t : Tree) : Prop :=
  ∀ {allowed : List RuleKind} {parent : Option RuleKind} {c : Validator} {v : Value} {e : ValidationError},
    ofNode allowed parent t = .ok c → c.run v = .error (.invalid e) →
      e.path = [] ∨ ∃ s w, t.Leads v e.path s w ∧ s.Rejects w e.cause

theorem leads_of_located {v : Value} {e : ValidationError} (ih : Located t) (h : ofNode allowed parent t = .ok c)
    (ha : ∀ k ∈ allowed, k ∈ RuleKind.bindable) (he : c.run v = .error (.invalid e)) :
    ∃ s w, t.Leads v e.path s w ∧ s.Rejects w e.cause := by
  rcases ih h he with hpath | hleads
  · obtain ⟨cause, path⟩ := e
    cases hpath
    exact ⟨t, v, .here, c, ofTree_eq_ok_of_bindable h ha, he⟩
  · exact hleads

/-- Inside containers without properties and elements no error has a path. -/
theorem path_of_flat {p : Primitive} (hp : RuleKind.hasAlternatives p = true) (hc : ofNode allowed parent t = .ok c)
    (ha : ∀ k ∈ allowed, k ∈ RuleKind.childrenOf p) {v : Value} {e : ValidationError} (he : c.run v = .error (.invalid e)) :
    e.path = [] := by
  obtain ⟨k, hk, hkind⟩ := kind?_of_ofNode_eq_ok hc
  have hk : k ∈ RuleKind.childrenOf p := ha k hk
  have hbindable : k ∉ RuleKind.bindable := fun h => RuleKind.bindable_not_mem_childrenOf h hk
  rcases leaf_or_group_of_ofNode_eq_ok hc with ⟨l, m, rfl⟩ | ⟨g, ts, hg⟩
  · exact path_of_ofCheck (ofNode_check_eq_ok_iff.mp hc).2 he
  · rw [hg.kind?] at hkind
    cases g with
    | any =>
      obtain ⟨-, p, alternatives, -, -, -, -, -, rfl⟩ := (ofNode_any_eq_ok_iff hg).mp hc
      rw [run, decideAny] at he
      rw [firstOr_eq_error he]
    | prop name =>
      cases hkind
      obtain rfl := RuleKind.prop_mem_childrenOf_iff.mp hk
      cases hp
    | item =>
      cases hkind
      obtain rfl := RuleKind.item_mem_childrenOf_iff.mp hk
      cases hp
    | kindless name => cases hkind
    | _ =>
      cases hkind
      exact absurd (by simp [RuleKind.mem_bindable]) hbindable

theorem located_container {p : Primitive} (h : t.Comprises (.container p) ts) (ih : ∀ s ∈ ts, Located s) :
    Located t := by
  intro allowed parent c v e hc he
  obtain ⟨-, checks, message, hts, -, rfl⟩ := (ofNode_container_eq_ok_iff h).mp hc
  rcases run_container_eq_error he with hpath | ⟨seen, hseen, he⟩
  · exact .inl hpath
  obtain ⟨cs, d, ds, rfl, hbefore, hd⟩ := runAll_eq_error he
  obtain ⟨first, s, rest, hproper, hfirst, hs⟩ := split_of_forall₂ hts
  obtain ⟨before, after, rfl, rfl⟩ := split_of_proper hproper
  rcases seen_of_receive hseen with rfl | rfl
  · rcases ih s (by simp) hs hd with hpath | ⟨u, w, hleads, hu⟩
    · exact .inl hpath
    · refine .inr ⟨u, w, .child h ?_ hleads, hu⟩
      intro r hr
      obtain ⟨a, ha, hra⟩ := exists_right_of_forall₂ hfirst hr
      exact ⟨a, hra, hbefore a ha⟩
  · exact .inl (path_of_flat rfl hs (fun _ hk => hk) hd)

theorem located_union (h : t.Comprises .union ts) (ih : ∀ s ∈ ts, Located s) : Located t := by
  intro allowed parent c v e hc he
  obtain ⟨-, branches, message, hts, -, -, -, rfl⟩ := (ofNode_union_eq_ok_iff h).mp hc
  rcases run_union_eq_error he with hpath | ⟨b, hb, he⟩
  · exact .inl hpath
  obtain ⟨s, hs, -, hbuilt⟩ := exists_left_of_forall₂ hts hb
  rcases ih s (Tree.mem_proper.mp hs).1 hbuilt he with hpath | ⟨u, w, hleads, hu⟩
  · exact .inl hpath
  · exact .inr ⟨u, w, .union h hs hleads, hu⟩

theorem located_prop {name : Value} (h : t.Comprises (.prop name) ts) (ih : ∀ s ∈ ts, Located s) : Located t := by
  intro allowed parent c v e hc he
  obtain ⟨-, s, key, inner, rfl, hkey, hs, rfl⟩ := (ofNode_prop_eq_ok_iff h).mp hc
  obtain ⟨rfl, -⟩ := propName_eq_ok_iff.mp hkey
  obtain ⟨es, f, rfl, hf, rfl⟩ := run_prop_eq_error he
  obtain ⟨u, w, hleads, hu⟩ := leads_of_located (ih s List.mem_cons_self) hs (fun _ hk => hk) hf
  exact .inr ⟨u, w, .property h hleads, hu⟩

theorem located_item (h : t.Comprises .item ts) (ih : ∀ s ∈ ts, Located s) : Located t := by
  intro allowed parent c v e hc he
  obtain ⟨-, s, inner, rfl, hs, rfl⟩ := (ofNode_item_eq_ok_iff h).mp hc
  obtain ⟨items, i, x, f, hitems, hx, hbefore, hf, rfl⟩ := run_item_eq_error he
  have hinner : ofTree s = .ok inner := ofTree_eq_ok_of_bindable hs fun _ hk => hk
  obtain ⟨u, w, hleads, hu⟩ := leads_of_located (ih s List.mem_cons_self) hs (fun _ hk => hk) hf
  exact .inr ⟨u, w, .element h hitems hx (fun y hy => ⟨inner, hinner, hbefore y hy⟩) hleads, hu⟩

theorem located_required {m : Value} (h : t.Comprises (.required m) ts) (ih : ∀ s ∈ ts, Located s) : Located t := by
  intro allowed parent c v e hc he
  obtain ⟨-, -, hts⟩ := (ofNode_required_eq_ok_iff h).mp hc
  rcases hts with ⟨rfl, rfl⟩ | ⟨s, inner, rfl, hs, rfl⟩
  · rcases run_required_eq_error he with hpath | ⟨_, hnone, -⟩
    · exact .inl hpath
    · cases hnone
  · rcases run_required_eq_error he with hpath | ⟨_, hsome, he⟩
    · exact .inl hpath
    · cases hsome
      rcases ih s List.mem_cons_self hs he with hpath | ⟨u, w, hleads, hu⟩
      · exact .inl hpath
      · exact .inr ⟨u, w, .required h hleads, hu⟩

theorem located_check (k : Check) (m : Value) : Located (.check k m) := by
  intro allowed parent c v e hc he
  exact .inl (path_of_ofCheck (ofNode_check_eq_ok_iff.mp hc).2 he)

theorem located_any (h : t.Comprises .any ts) : Located t := by
  intro allowed parent c v e hc he
  obtain ⟨-, p, alternatives, -, -, -, -, -, rfl⟩ := (ofNode_any_eq_ok_iff h).mp hc
  rw [run, decideAny] at he
  rw [firstOr_eq_error he]
  exact .inl rfl

theorem located (t : Tree) : Located t := by
  induction t using built_induct with
  | faulty t h => exact fun hc => absurd hc (h _ _ _)
  | check k m => exact located_check k m
  | any t ts h => exact located_any h
  | union t ts h ih => exact located_union h ih
  | container p t ts h ih => exact located_container h ih
  | prop name t ts h ih => exact located_prop h ih
  | item t ts h ih => exact located_item h ih
  | required m t ts h ih => exact located_required h ih

end Trees

theorem error_leads_to_rejection [Text.CharacterNames] {t : Tree} {c : Validator} {v : Value} {e : ValidationError}
    (h : ofTree t = .ok c) (he : c.run v = .error (.invalid e)) :
    ∃ s w, t.Leads v e.path s w ∧ v.follow? e.path = some w ∧ s.Rejects w e.cause := by
  obtain ⟨s, w, hleads, hs⟩ := leads_of_located (located t) h (fun _ hk => hk) he
  exact ⟨s, w, hleads, hleads.follow?, hs⟩

open Text.CommonNames

theorem error_leads_to_rejection_tags :
    ∃ (t : Tree) (c : Validator) (v : Value) (e : ValidationError),
      t = .container .object [.prop (.str "tags") [.container .array
        [.item [.container .string [.bound .min (.number (.int 2))]]]]] ∧
      v = .map [(.str "tags", .list [.str "ab", .str "c"])] ∧
      ofTree t = .ok c ∧ c.run v = .error (.invalid e) ∧ e.path = [⟨.property, .text "tags"⟩, ⟨.item, .index 1⟩] ∧
      ∃ s w, t.Leads v e.path s w ∧ v.follow? e.path = some w ∧ s.Rejects w e.cause := by
  let t : Tree := .container .object [.prop (.str "tags") [.container .array
    [.item [.container .string [.bound .min (.number (.int 2))]]]]]
  let v : Value := .map [(.str "tags", .list [.str "ab", .str "c"])]
  obtain ⟨c, hc⟩ : ∃ c, ofTree t = .ok c := ⟨_, rfl⟩
  obtain ⟨e, he, hpath⟩ : ∃ e, c.run v = .error (.invalid e) ∧ e.path = [⟨.property, .text "tags"⟩, ⟨.item, .index 1⟩] := by
    cases hc
    exact ⟨_, rfl, rfl⟩
  exact ⟨t, c, v, e, rfl, rfl, hc, he, hpath, error_leads_to_rejection hc he⟩

end Validator

end RuleTree
