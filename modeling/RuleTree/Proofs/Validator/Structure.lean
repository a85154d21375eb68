import RuleTree.Proofs.Validator.Location
import RuleTree.Text.CommonNames

/-!
# Checks of structure

What has been looked at when the rule of an object or an array accepts a value. The value is a mapping or a row, and every
property and every element has been accepted by the rule for it. A namesake is the exception: a foreign value whose type is
called like the kind of the container. It passes for a value of the kind, but has no properties and no elements to look at.
-/

namespace RuleTree

/-! ### Kinds that have parts -/

namespace Value

theorem foreign_of_kind {n : String} {p : Primitive} (h : (foreign n).kind = .primitive p) : n = p.name := by
  have hname : (Kind.ofName n).name = p.name := congrArg Kind.name h
  rwa [Kind.name_ofName] at hname

theorem map_or_namesake_of_kind {v : Value} (h : v.kind = .primitive .object) :
    (∃ es, v = .map es) ∨ v = .foreign Primitive.object.name := by
  cases v with
  | map es => exact .inl ⟨es, rfl⟩
  | foreign n => exact .inr (congrArg foreign (foreign_of_kind h))
  | _ => cases h

theorem row_or_namesake_of_kind {v : Value} (h : v.kind = .primitive .array) :
    (∃ items, v.items? = some items) ∨ v = .foreign Primitive.array.name := by
  cases v with
  | list items => exact .inl ⟨items, rfl⟩
  | tuple items => exact .inl ⟨items, rfl⟩
  | foreign n => exact .inr (congrArg foreign (foreign_of_kind h))
  | _ => cases h

/-- What is not null at a name is in the mapping. -/
theorem lookup_of_property_ne_null {key : Key} {es : List (Value × Value)} (h : property key es ≠ .null) :
    ∃ w, lookup key.toValue es = some w ∧ w ≠ .null := by
  unfold property at h
  cases hw : lookup key.toValue es with
  | none =>
    rw [hw] at h
    exact absurd rfl h
  | some w =>
    rw [hw] at h
    exact ⟨w, rfl, h⟩

end Value

namespace Tree

/-- Whether a rule, should it be about a property, is about one that a mapping has with a value that its sub-rule accepts.
If the sub-rule requires a value, then there is one. -/
def PropertyHolds [Text.CharacterNames] (s : Tree) (es : List (Value × Value)) : Prop :=
  ∀ name subs, s.Comprises (.prop name) subs → ∃ key sub, name = key.toValue ∧ subs = [sub] ∧
    sub.Accepts (Value.property key es) ∧
    ∀ m us, sub.Comprises (.required m) us → ∃ w, Value.lookup key.toValue es = some w ∧ w ≠ .null

/-- Whether a rule, should it be about elements, has a sub-rule that accepts all elements of a row. -/
def ElementsHold [Text.CharacterNames] (s : Tree) (items : List Value) : Prop :=
  ∀ subs, s.Comprises .item subs → ∃ sub, subs = [sub] ∧ ∀ w ∈ items, sub.Accepts w

theorem isMismatch_of_comprises {t : Tree} {g : Group} {ts : List Tree} (h : t.Comprises g ts) :
    t.isMismatch = false := by
  cases h with
  | group row => rfl
  | unlisted => rfl

end Tree

namespace Validator

variable {allowed : List RuleKind} {parent : Option RuleKind} {t : Tree} {ts : List Tree} {c : Validator} {v : Value}

/-! ### Containers -/

theorem receive_of_parts {p : Primitive} {seen : Value} (hp : p ≠ .date) (h : receive p v = .ok seen) :
    v.kind = .primitive p ∧ seen = v := by
  have hseen : seen = v := (seen_of_receive h).resolve_right hp
  by_cases hk : v.kind = .primitive p
  · exact ⟨hk, hseen⟩
  · exact absurd ((receive_of_kind_ne hk).mp h).1 hp

/-- A container of objects or arrays that accepts a value has one of its kind, and every child accepts it. -/
theorem children_accept [Text.CharacterNames] {p : Primitive} (hp : p ≠ .date) (h : t.Comprises (.container p) ts)
    (hc : ofNode allowed parent t = .ok c) (hv : v ≠ .null) (hacc : c.accepts v = true) :
    v.kind = .primitive p ∧ ∀ s ∈ Tree.proper ts, ∃ d,
      ofNode (RuleKind.childrenOf p) (some (.container p)) s = .ok d ∧ d.accepts v = true := by
  obtain ⟨-, checks, message, hts, -, rfl⟩ := (ofNode_container_eq_ok_iff h).mp hc
  rcases accepts_container_iff.mp hacc with hnull | ⟨seen, hseen, hall⟩
  · exact absurd hnull hv
  obtain ⟨hk, rfl⟩ := receive_of_parts hp hseen
  refine ⟨hk, fun s hs => ?_⟩
  obtain ⟨d, hd, hsd⟩ := exists_right_of_forall₂ hts hs
  exact ⟨d, hsd, hall d hd⟩

/-! ### Properties and elements -/

section Parts

variable [Text.CharacterNames]

theorem value_ne_null_of_required {m : Value} (h : t.Comprises (.required m) ts) (hacc : t.Accepts v) : v ≠ .null := by
  obtain ⟨c, hc, hacc⟩ := hacc
  obtain ⟨-, -, ⟨-, rfl⟩ | ⟨_, _, -, -, rfl⟩⟩ := (ofNode_required_eq_ok_iff h).mp hc
  · exact accepts_required_none_iff.mp hacc
  · exact (accepts_required_some_iff.mp hacc).1

theorem propertyHolds_of_accepts {s : Tree} {d : Validator} {es : List (Value × Value)}
    (hd : ofNode allowed parent s = .ok d) (hacc : d.accepts (.map es) = true) : s.PropertyHolds es := by
  intro name subs hs
  obtain ⟨-, sub, key, inner, rfl, hkey, hinner, rfl⟩ := (ofNode_prop_eq_ok_iff hs).mp hd
  obtain ⟨rfl, -⟩ := propName_eq_ok_iff.mp hkey
  rw [accepts_prop_map] at hacc
  have hsub : sub.Accepts (Value.property key es) :=
    ⟨inner, ofTree_eq_ok_of_bindable hinner fun _ hk => hk, hacc⟩
  refine ⟨key, sub, rfl, rfl, hsub, fun m us hus => ?_⟩
  exact Value.lookup_of_property_ne_null (value_ne_null_of_required hus hsub)

theorem elementsHold_of_accepts {s : Tree} {d : Validator} {items : List Value} (hitems : v.items? = some items)
    (hd : ofNode allowed parent s = .ok d) (hacc : d.accepts v = true) : s.ElementsHold items := by
  intro subs hs
  obtain ⟨-, sub, inner, rfl, hinner, rfl⟩ := (ofNode_item_eq_ok_iff hs).mp hd
  have hall := (accepts_item_iff hitems).mp hacc
  refine ⟨sub, rfl, fun w hw => ⟨inner, ?_, hall w hw⟩⟩
  exact ofTree_eq_ok_of_bindable hinner fun _ hk => hk

theorem propertyHolds_of_mismatch {s : Tree} (h : s.isMismatch = true) (es : List (Value × Value)) :
    s.PropertyHolds es := by
  intro name subs hs
  rw [Tree.isMismatch_of_comprises hs] at h
  cases h

theorem elementsHold_of_mismatch {s : Tree} (h : s.isMismatch = true) (items : List Value) : s.ElementsHold items := by
  intro subs hs
  rw [Tree.isMismatch_of_comprises hs] at h
  cases h

theorem properties_checked (h : t.Comprises (.container .object) ts) (hc : ofNode allowed parent t = .ok c)
    (hv : v ≠ .null) (hacc : c.accepts v = true) (hforeign : v ≠ .foreign Primitive.object.name) :
    ∃ es, v = .map es ∧ ∀ s ∈ ts, s.PropertyHolds es := by
  obtain ⟨hk, hall⟩ := children_accept (by decide) h hc hv hacc
  obtain ⟨es, rfl⟩ := (Value.map_or_namesake_of_kind hk).resolve_right hforeign
  refine ⟨es, rfl, fun s hs => ?_⟩
  cases hm : s.isMismatch with
  | true => exact propertyHolds_of_mismatch hm es
  | false =>
    obtain ⟨d, hd, hda⟩ := hall s (Tree.mem_proper.mpr ⟨hs, hm⟩)
    exact propertyHolds_of_accepts hd hda

theorem elements_checked (h : t.Comprises (.container .array) ts) (hc : ofNode allowed parent t = .ok c)
    (hv : v ≠ .null) (hacc : c.accepts v = true) (hforeign : v ≠ .foreign Primitive.array.name) :
    ∃ items, v.items? = some items ∧ ∀ s ∈ ts, s.ElementsHold items := by
  obtain ⟨hk, hall⟩ := children_accept (by decide) h hc hv hacc
  obtain ⟨items, hitems⟩ := (Value.row_or_namesake_of_kind hk).resolve_right hforeign
  refine ⟨items, hitems, fun s hs => ?_⟩
  cases hm : s.isMismatch with
  | true => exact elementsHold_of_mismatch hm items
  | false =>
    obtain ⟨d, hd, hda⟩ := hall s (Tree.mem_proper.mpr ⟨hs, hm⟩)
    exact elementsHold_of_accepts hitems hd hda

/-- On a value that a rule accepts, wherever the rule stands, the structure that the rule declares has been checked exactly if
the value is no namesake. -/
theorem structure_checked_iff (hc : ofNode allowed parent t = .ok c) (hv : v ≠ .null) (hacc : c.accepts v = true) :
    (t.Comprises (.container .object) ts →
      ((∃ es, v = .map es ∧ ∀ s ∈ ts, s.PropertyHolds es) ↔ v ≠ .foreign Primitive.object.name)) ∧
    (t.Comprises (.container .array) ts →
      ((∃ items, v.items? = some items ∧ ∀ s ∈ ts, s.ElementsHold items) ↔ v ≠ .foreign Primitive.array.name)) := by
  constructor
  · intro h
    constructor
    · intro hchecked hforeign
      obtain ⟨es, rfl, -⟩ := hchecked
      cases hforeign
    · exact properties_checked h hc hv hacc
  · intro h
    constructor
    · intro hchecked hforeign
      obtain ⟨items, hitems, -⟩ := hchecked
      subst hforeign
      cases hitems
    · exact elements_checked h hc hv hacc

end Parts

open Text.CommonNames

theorem structure_checked_iff_owner :
    ∃ (t : Tree) (ts : List Tree) (c : Validator) (v : Value),
      ts = [.prop (.str "owner") [.required [.container .string []]]] ∧ t = .container .object ts ∧
      v = .map [(.str "owner", .str "thor")] ∧ ofTree t = .ok c ∧ v ≠ .null ∧ c.accepts v = true ∧
      (∃ es, v = .map es ∧ ∀ s ∈ ts, s.PropertyHolds es) := by
  let ts : List Tree := [.prop (.str "owner") [.required [.container .string []]]]
  let t : Tree := .container .object ts
  let v : Value := .map [(.str "owner", .str "thor")]
  obtain ⟨c, hc⟩ : ∃ c, ofTree t = .ok c := ⟨_, rfl⟩
  have hacc : c.accepts v = true := by
    cases hc
    rfl
  have hv : v ≠ .null := by simp [v]
  have hforeign : v ≠ .foreign Primitive.object.name := by simp [v]
  have hchecked : (∃ es, v = .map es ∧ ∀ s ∈ ts, s.PropertyHolds es) ↔ v ≠ .foreign Primitive.object.name :=
    (structure_checked_iff hc hv hacc).1 (.group _ _ _)
  exact ⟨t, ts, c, v, rfl, rfl, rfl, hc, hv, hacc, hchecked.mpr hforeign⟩

/-! ### Namesakes -/

theorem accepts_prop_of_ne_map {key : Key} {inner : Validator} (h : ∀ es, v ≠ .map es) :
    (prop key inner).accepts v = true := by
  rw [accepts_iff_run_eq_ok, run]
  exact fun es hes => h es hes

theorem accepts_item_of_no_items {inner : Validator} (h : v.items? = none) : (item inner).accepts v = true := by
  rw [accepts_iff_run_eq_ok, run, h]

theorem receive_namesake {p : Primitive} (hp : p ≠ .number) :
    receive p (.foreign p.name) = .ok (.foreign p.name) := by
  have hk : (Value.foreign p.name).kind = .primitive p := Kind.ofName_name_primitive p
  have hn : ¬(p = .number ∧ (Value.foreign p.name).isFiniteNumber = false) := fun h => hp h.1
  rw [receive_of_kind hk, if_neg hn]

/-- A namesake is accepted whatever the children of the container demand of properties and elements. -/
theorem namesake_accepted [Text.CharacterNames] {p : Primitive}
    (hp : p = .object ∨ p = .array) (h : t.Comprises (.container p) ts)
    (hc : ofNode allowed parent t = .ok c)
    (hparts : ∀ s ∈ ts, s.kind? = some .prop ∨ s.kind? = some .item ∨ s.isMismatch = true) :
    c.accepts (.foreign p.name) = true := by
  obtain ⟨-, checks, message, hts, -, rfl⟩ := (ofNode_container_eq_ok_iff h).mp hc
  have hnumber : p ≠ .number := by
    rcases hp with rfl | rfl
    · decide
    · decide
  refine accepts_container_iff.mpr (.inr ⟨_, receive_namesake hnumber, fun d hd => ?_⟩)
  obtain ⟨s, hs, hsd⟩ := exists_left_of_forall₂ hts hd
  obtain ⟨hmem, hmismatch⟩ := Tree.mem_proper.mp hs
  have hkind := hparts s hmem
  rcases leaf_or_group_of_ofNode_eq_ok hsd with ⟨k, m, rfl⟩ | ⟨g, us, hg⟩
  · rcases hkind with hk | hk | hk
    · cases k <;> cases hk
    · cases k <;> cases hk
    · rw [hmismatch] at hk
      cases hk
  · rw [hmismatch, hg.kind?] at hkind
    cases g with
    | prop name =>
      obtain ⟨-, _, _, _, -, -, -, rfl⟩ := (ofNode_prop_eq_ok_iff hg).mp hsd
      exact accepts_prop_of_ne_map fun es hes => by cases hes
    | item =>
      obtain ⟨-, _, _, -, -, rfl⟩ := (ofNode_item_eq_ok_iff hg).mp hsd
      exact accepts_item_of_no_items rfl
    | _ => simp [Group.kind?] at hkind

/-- An object without the property that its rule requires. -/
theorem required_property_skipped :
    ∃ c, ofTree (.container .object [.prop (.str "a") [.required []]]) = .ok c ∧
      c.accepts (.foreign Primitive.object.name) = true ∧ ∀ es, Value.foreign Primitive.object.name ≠ .map es := by
  obtain ⟨c, hc⟩ : ∃ c, ofTree (.container .object [.prop (.str "a") [.required []]]) = .ok c := ⟨_, rfl⟩
  refine ⟨c, hc, namesake_accepted (.inl rfl) (.group _ _ _) hc ?_, fun es hes => by cases hes⟩
  intro s hs
  obtain rfl := List.mem_singleton.mp hs
  exact .inl rfl

end Validator

end RuleTree
