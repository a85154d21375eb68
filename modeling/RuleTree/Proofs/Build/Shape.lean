import RuleTree.Proofs.Build.Nodes
import RuleTree.Proofs.Rule.Grammar
import RuleTree.Text.CommonNames

/-!
# The shape of validators

What can be relied on in every validator that is built, at any depth: a container has only checks that are made for its kind,
the branches of a union are containers of different kinds, alternatives do not nest, and so on. What the builder puts together
itself is looked at for each sort of rule; that it holds of everything inside is by induction on the tree.
-/

namespace RuleTree

/-! ### Parts -/

namespace Validator

/-- The kind of the rules that a validator is for. -/
def kind : Validator → RuleKind
  | .equal _ _ _ => .equal
  | .equalMoment _ _ _ => .equal
  | .bound b _ _ _ => .bound b
  | .range _ _ _ => .range
  | .pattern _ _ _ => .pattern
  | .dateBound b _ _ _ => .dateBound b
  | .between _ _ _ _ => .between
  | .any _ => .any
  | .container p _ _ => .container p
  | .union _ _ => .union
  | .prop _ _ => .prop
  | .item _ => .item
  | .required _ _ => .required

/-- The validators right inside a validator. -/
def inside : Validator → List Validator
  | .any alternatives => alternatives
  | .container _ checks _ => checks
  | .union branches _ => branches.map Prod.snd
  | .prop _ inner => [inner]
  | .item inner => [inner]
  | .required inner _ => inner.toList
  | _ => []

/-- What a validator is made of: itself, and the parts of those inside it. -/
inductive Part (d : Validator) : Validator → Prop
  | self : Part d d
  | within {a c : Validator} (h : a ∈ c.inside) : Part d a → Part d c

theorem forall_part_iff {P : Validator → Prop} {c : Validator} :
    (∀ d, Part d c → P d) ↔ P c ∧ ∀ a ∈ c.inside, ∀ d, Part d a → P d := by
  constructor
  · exact fun h => ⟨h c .self, fun a ha d hd => h d (.within ha hd)⟩
  · intro h d hd
    cases hd with
    | self => exact h.1
    | within ha hd => exact h.2 _ ha d hd

mutual

/-- The kinds of all parts, from the outside to the inside. -/
def kinds : Validator → List RuleKind
  | .any alternatives => .any :: rowKinds alternatives
  | .container p checks _ => .container p :: rowKinds checks
  | .union branches _ => .union :: branchKinds branches
  | .prop _ inner => .prop :: inner.kinds
  | .item inner => .item :: inner.kinds
  | .required (some inner) _ => .required :: inner.kinds
  | c => [c.kind]

def rowKinds : List Validator → List RuleKind
  | [] => []
  | c :: cs => c.kinds ++ rowKinds cs

def branchKinds : List (Primitive × Validator) → List RuleKind
  | [] => []
  | (_, c) :: bs => c.kinds ++ branchKinds bs

end

theorem rowKinds_eq (cs : List Validator) : rowKinds cs = cs.flatMap kinds := by
  induction cs with
  | nil => rfl
  | cons c cs ih => rw [rowKinds, ih, List.flatMap_cons]

theorem branchKinds_eq (bs : List (Primitive × Validator)) : branchKinds bs = (bs.map Prod.snd).flatMap kinds := by
  induction bs with
  | nil => rfl
  | cons b bs ih => rw [branchKinds, ih, List.map_cons, List.flatMap_cons]

theorem kinds_eq (c : Validator) : c.kinds = c.kind :: c.inside.flatMap kinds := by
  cases c with
  | any alternatives => rw [kinds, rowKinds_eq, kind, inside]
  | container p checks m => rw [kinds, rowKinds_eq, kind, inside]
  | union branches m => rw [kinds, branchKinds_eq, kind, inside]
  | prop key inner => rw [kinds, kind, inside, List.flatMap_singleton]
  | item inner => rw [kinds, kind, inside, List.flatMap_singleton]
  | required inner m =>
    cases inner with
    | none => rfl
    | some inner => rw [kinds, kind, inside, Option.toList_some, List.flatMap_singleton]
  | _ => rfl

end Validator

namespace Tree

mutual

/-- The kinds of all rules in a tree, from the outside to the inside. -/
def kinds : Tree → List RuleKind
  | .stray _ => []
  | .check c _ => c.kind?.toList
  | .group g _ ts => g.kind?.toList ++ rowKinds ts
  | .unlisted g _ => g.kind?.toList

def rowKinds : List Tree → List RuleKind
  | [] => []
  | t :: ts => t.kinds ++ rowKinds ts

end

theorem rowKinds_eq (ts : List Tree) : rowKinds ts = ts.flatMap kinds := by
  induction ts with
  | nil => rfl
  | cons t ts ih => rw [rowKinds, ih, List.flatMap_cons]

theorem Comprises.kinds {t : Tree} {g : Group} {ts : List Tree} (h : t.Comprises g ts) :
    t.kinds = g.kind?.toList ++ ts.flatMap Tree.kinds := by
  cases h with
  | group row => rw [Tree.kinds, rowKinds_eq]
  | unlisted => rw [Tree.kinds, List.flatMap_nil, List.append_nil]

/-- The kinds in a tree without those of the mismatch rules. -/
def demands (t : Tree) : List RuleKind := t.kinds.filter (· ≠ .mismatch)

theorem Comprises.demands {t : Tree} {g : Group} {ts : List Tree} {k : RuleKind} (h : t.Comprises g ts)
    (hk : g.kind? = some k) : t.demands = k :: (proper ts).flatMap Tree.demands := by
  have hne : k ≠ .mismatch := by
    rintro rfl
    cases g <;> cases hk
  have hproper : ∀ ts : List Tree, (ts.flatMap Tree.kinds).filter (· ≠ .mismatch) = (proper ts).flatMap Tree.demands := by
    intro ts
    induction ts with
    | nil => rfl
    | cons s ts ih =>
      rw [List.flatMap_cons, List.filter_append, ih]
      cases hs : s.isMismatch with
      | true =>
        obtain ⟨m, rfl⟩ := eq_mismatch_of_isMismatch hs
        rfl
      | false => rw [proper_cons hs, List.flatMap_cons, Tree.demands]
  rw [Tree.demands, h.kinds, hk, Option.toList_some, List.singleton_append, List.filter_cons_of_pos (by simpa using hne), hproper]

end Tree

/-! ### Places -/

namespace RuleKind

variable {p : Primitive}

theorem pattern_mem_childrenOf_iff : .pattern ∈ childrenOf p ↔ p = .string := by
  cases p <;> decide

theorem dateBound_mem_childrenOf_iff {b : DateBound} : .dateBound b ∈ childrenOf p ↔ p = .date := by
  cases b <;> cases p <;> decide

theorem between_mem_childrenOf_iff : .between ∈ childrenOf p ↔ p = .date := by
  cases p <;> decide

theorem any_not_mem_alternativesOf (p : Primitive) : .any ∉ alternativesOf p := by
  cases p <;> decide

end RuleKind

namespace Validator

/-! ### Shapes -/

/-- Whether a check, other than alternatives, is made for values of a kind. -/
def MadeFor (p : Primitive) : Validator → Prop
  | .equal k v _ => p ≠ .date ∧ k = .primitive p ∧ v.kind = .primitive p ∧ ∀ n, v = .number n → n.isNumber = true
  | .equalMoment _ _ _ => p = .date
  | .bound _ subject _ _ => subject.primitive = p
  | .range _ _ _ => p = .number
  | .pattern _ _ _ => p = .string
  | .dateBound _ _ _ _ => p = .date
  | .between _ _ _ _ => p = .date
  | .prop _ _ => p = .object
  | .item _ => p = .array
  | _ => False

/-- Whether a check may stand in a container of a kind. Alternatives may where each of them may. -/
def Suits (p : Primitive) (c : Validator) : Prop :=
  c.MadeFor p ∨ ∃ alternatives, c = .any alternatives ∧ ∀ a ∈ alternatives, a.MadeFor p

/-- What holds of a validator itself, given what it is made of. -/
def Shaped : Validator → Prop
  | .range low high _ => low.lt high = true
  | .between first last _ _ => first < last
  | .any alternatives => 2 ≤ alternatives.length ∧ ∀ a ∈ alternatives, a.kind ≠ .any
  | .container p checks _ => ∀ c ∈ checks, c.Suits p
  | .union branches _ =>
    2 ≤ branches.length ∧ (branches.map Prod.fst).Nodup ∧ ∀ b ∈ branches, ∃ checks m, b.2 = .container b.1 checks m
  | .prop _ inner => inner.kind ∈ RuleKind.bindable
  | .item inner => inner.kind ∈ RuleKind.bindable
  | .required (some inner) _ => inner.kind ∈ RuleKind.wrappable ∧ inner.kind ≠ .required
  | _ => True

variable {allowed : List RuleKind} {parent : Option RuleKind} {p : Primitive} {t : Tree} {ts : List Tree} {c : Validator}

/-! ### Mirrors -/

/-- Every part of a validator has its shape, and the parts are for the rules of a tree other than mismatch rules, one by one. -/
def Mirrors (t : Tree) (c : Validator) : Prop := (∀ d, Part d c → d.Shaped) ∧ c.kinds = t.demands

theorem mirrors_of_leaf {k : RuleKind} (hkinds : t.kinds = [k]) (hkind : c.kind = k) (hk : k ≠ .mismatch)
    (hinside : c.inside = []) (hshape : c.Shaped) : Mirrors t c := by
  refine ⟨forall_part_iff.mpr ⟨hshape, ?_⟩, ?_⟩
  · rw [hinside]
    exact List.forall_mem_nil _
  · rw [kinds_eq, hinside, List.flatMap_nil, hkind, Tree.demands, hkinds]
    simp [hk]

theorem flatMap_kinds {cs : List Validator} (h : List.Forall₂ Mirrors ts cs) : cs.flatMap kinds = ts.flatMap Tree.demands := by
  induction h with
  | nil => rfl
  | cons hs _ ih => rw [List.flatMap_cons, List.flatMap_cons, hs.2, ih]

/-- The step of the induction: the shape of a validator itself, and a row inside it that mirrors the children of a rule. -/
theorem mirrors_of_row {g : Group} (h : t.Comprises g ts) (hkind : g.kind? = some c.kind) (hshape : c.Shaped)
    (hrow : List.Forall₂ Mirrors (Tree.proper ts) c.inside) : Mirrors t c := by
  constructor
  · refine forall_part_iff.mpr ⟨hshape, fun a ha => ?_⟩
    obtain ⟨s, -, hs⟩ := exists_left_of_forall₂ hrow ha
    exact hs.1
  · rw [kinds_eq, h.demands hkind, flatMap_kinds hrow]

section Names

variable [Text.CharacterNames]

/-! ### Leaves -/

/-- The validator of a leaf is for what the leaf is for. If the leaf may stand in its container, it is made for the kind. -/
theorem leaf_of_ofCheck {k : Check} {m : Value} (h : ofCheck k m (some (.container p)) = .ok c) :
    k.kind? = some c.kind ∧ c.inside = [] ∧ c.Shaped ∧ (c.kind ∈ RuleKind.childrenOf p → c.MadeFor p) := by
  cases k with
  | equal v =>
    by_cases hp : p = .date
    · subst hp
      obtain ⟨_, -, -, rfl⟩ := ofEqual_date_eq_ok_iff.mp h
      exact ⟨rfl, rfl, trivial, fun _ => rfl⟩
    · obtain ⟨hkind, hnumber, -, -, rfl⟩ := (ofEqual_eq_ok_iff hp).mp h
      refine ⟨rfl, rfl, trivial, fun _ => ⟨hp, rfl, hkind, ?_⟩⟩
      rintro n rfl
      have hn := hnumber (Kind.primitive.inj hkind).symm
      obtain ⟨n', hn'⟩ := Option.isSome_iff_exists.mp hn
      obtain ⟨heq, hisNumber⟩ := Value.number?_iff.mp hn'
      cases heq
      exact hisNumber
  | bound b v =>
    obtain ⟨_, _, -, hs, -, rfl⟩ := ofBound_eq_ok_iff.mp h
    exact ⟨rfl, rfl, trivial, fun _ => primitive_of_ofPrimitive? hs⟩
  | range min max =>
    obtain ⟨_, _, -, -, hlt, -, rfl⟩ := ofRange_eq_ok_iff.mp h
    exact ⟨rfl, rfl, hlt, RuleKind.range_mem_childrenOf_iff.mp⟩
  | pattern regex =>
    obtain ⟨_, _, -, -, -, rfl⟩ := ofPattern_eq_ok_iff.mp h
    exact ⟨rfl, rfl, trivial, RuleKind.pattern_mem_childrenOf_iff.mp⟩
  | dateBound b v =>
    obtain ⟨_, -, -, rfl⟩ := ofDateBound_eq_ok_iff.mp h
    exact ⟨rfl, rfl, trivial, RuleKind.dateBound_mem_childrenOf_iff.mp⟩
  | between first last =>
    obtain ⟨_, _, -, -, hlt, -, rfl⟩ := ofBetween_eq_ok_iff.mp h
    exact ⟨rfl, rfl, hlt, RuleKind.between_mem_childrenOf_iff.mp⟩
  | mismatch => exact absurd h fault_ne_ok
  | kindless name v => exact absurd h fault_ne_ok

/-! ### Rules where they stand -/

theorem kind_of_ofNode {place : Position} (h : ofNode allowed parent t = .ok c) (hplace : place.Governs allowed parent) :
    t.kind? = some c.kind := by
  rcases leaf_or_group_of_ofNode_eq_ok h with ⟨k, m, rfl⟩ | ⟨g, ts, hg⟩
  · obtain ⟨⟨j, hj, hk⟩, hc⟩ := ofNode_check_eq_ok_iff.mp h
    obtain ⟨p, rfl⟩ := Position.exists_inside (hplace.1 j hj) (RuleKind.not_mem_bindable_of_check hk)
    rw [hplace.2 p rfl] at hc
    exact (leaf_of_ofCheck hc).1
  · rw [hg.kind?]
    cases g with
    | any =>
      obtain ⟨-, _, _, -, -, -, -, -, rfl⟩ := (ofNode_any_eq_ok_iff hg).mp h
      rfl
    | union =>
      obtain ⟨-, _, _, -, -, -, -, rfl⟩ := (ofNode_union_eq_ok_iff hg).mp h
      rfl
    | container p =>
      obtain ⟨-, _, _, -, -, rfl⟩ := (ofNode_container_eq_ok_iff hg).mp h
      rfl
    | prop name =>
      obtain ⟨-, _, _, _, -, -, -, rfl⟩ := (ofNode_prop_eq_ok_iff hg).mp h
      rfl
    | item =>
      obtain ⟨-, _, _, -, -, rfl⟩ := (ofNode_item_eq_ok_iff hg).mp h
      rfl
    | required m =>
      obtain ⟨-, -, ⟨-, rfl⟩ | ⟨_, _, -, -, rfl⟩⟩ := (ofNode_required_eq_ok_iff hg).mp h <;> rfl
    | kindless name => exact absurd h (ofNode_kindless_ne_ok hg)

theorem kind_mem_of_ofNode {place : Position} (h : ofNode allowed parent t = .ok c) (hplace : place.Governs allowed parent) :
    c.kind ∈ allowed := by
  obtain ⟨k, hk, hkind⟩ := kind?_of_ofNode_eq_ok h
  cases hkind.symm.trans (kind_of_ofNode h hplace)
  exact hk

section Inside

variable (hallowed : ∀ k ∈ allowed, k ∈ RuleKind.childrenOf p)

include hallowed

theorem madeFor_of_ofNode (h : ofNode allowed (some (.container p)) t = .ok c) (hany : c.kind ≠ .any) : c.MadeFor p := by
  have hmem : c.kind ∈ RuleKind.childrenOf p := hallowed _ (kind_mem_of_ofNode h (Position.governs_inside hallowed))
  rcases leaf_or_group_of_ofNode_eq_ok h with ⟨k, m, rfl⟩ | ⟨g, ts, hg⟩
  · exact (leaf_of_ofCheck (ofNode_check_eq_ok_iff.mp h).2).2.2.2 hmem
  · have hkind : g.kind? = some c.kind := hg.kind?.symm.trans (kind_of_ofNode h (Position.governs_inside hallowed))
    cases g with
    | any =>
      obtain ⟨-, _, _, -, -, -, -, -, rfl⟩ := (ofNode_any_eq_ok_iff hg).mp h
      exact absurd rfl hany
    | prop name =>
      obtain ⟨-, _, _, _, -, -, -, rfl⟩ := (ofNode_prop_eq_ok_iff hg).mp h
      exact RuleKind.prop_mem_childrenOf_iff.mp hmem
    | item =>
      obtain ⟨-, _, _, -, -, rfl⟩ := (ofNode_item_eq_ok_iff hg).mp h
      exact RuleKind.item_mem_childrenOf_iff.mp hmem
    | union =>
      rw [← Option.some.inj hkind] at hmem
      exact absurd hmem (RuleKind.bindable_not_mem_childrenOf (RuleKind.mem_bindable.mpr (.inr (.inl rfl))))
    | container q =>
      rw [← Option.some.inj hkind] at hmem
      exact absurd hmem (RuleKind.bindable_not_mem_childrenOf (RuleKind.mem_bindable.mpr (.inr (.inr ⟨q, rfl⟩))))
    | required m =>
      rw [← Option.some.inj hkind] at hmem
      exact absurd hmem (RuleKind.bindable_not_mem_childrenOf (RuleKind.mem_bindable.mpr (.inl rfl)))
    | kindless name => exact absurd h (ofNode_kindless_ne_ok hg)

theorem suits_of_ofNode (h : ofNode allowed (some (.container p)) t = .ok c) : c.Suits p := by
  by_cases hany : c.kind = .any
  · rcases leaf_or_group_of_ofNode_eq_ok h with ⟨k, m, rfl⟩ | ⟨g, ts, hg⟩
    · have hk := (leaf_of_ofCheck (ofNode_check_eq_ok_iff.mp h).2).1
      rw [hany] at hk
      cases k <;> cases hk
    · have hkind := kind_of_ofNode h (Position.governs_inside hallowed)
      rw [hg.kind?, hany] at hkind
      cases g with
      | any =>
        obtain ⟨-, q, alternatives, hq, -, -, hrow, -, rfl⟩ := (ofNode_any_eq_ok_iff hg).mp h
        cases hq
        refine .inr ⟨alternatives, rfl, fun a ha => ?_⟩
        obtain ⟨s, -, hs⟩ := exists_left_of_forall₂ hrow ha
        refine madeFor_of_ofNode (fun _ hk => RuleKind.alternatives_children hk) hs ?_
        intro hk
        have hmem := kind_mem_of_ofNode hs (Position.governs_inside fun _ hk => RuleKind.alternatives_children hk)
        rw [hk] at hmem
        exact RuleKind.any_not_mem_alternativesOf p hmem
      | _ => cases hkind
  · exact .inl (madeFor_of_ofNode hallowed h hany)

end Inside

/-! ### Whole trees -/

/-- Whatever a tree is built into where it may stand mirrors it. -/
def BuildsMirror (t : Tree) : Prop :=
  ∀ {allowed : List RuleKind} {parent : Option RuleKind} {c : Validator} {place : Position},
    ofNode allowed parent t = .ok c → place.Governs allowed parent → Mirrors t c

theorem proper_singleton {place : Position} (h : ofNode allowed parent t = .ok c) (hplace : place.Governs allowed parent)
    (hbindable : ∀ k ∈ allowed, k ∈ RuleKind.bindable) : Tree.proper [t] = [t] := by
  have hne : c.kind ≠ .mismatch := by
    intro hk
    have hmem := hbindable _ (kind_mem_of_ofNode h hplace)
    rw [hk] at hmem
    exact absurd hmem (by decide)
  exact Tree.proper_cons (Tree.isMismatch_eq_false_of_kind? (kind_of_ofNode h hplace) hne) []

theorem buildsMirror_check (k : Check) (m : Value) : BuildsMirror (.check k m) := by
  intro allowed parent c place h hplace
  obtain ⟨⟨j, hj, hk⟩, hc⟩ := ofNode_check_eq_ok_iff.mp h
  obtain ⟨p, rfl⟩ := Position.exists_inside (hplace.1 j hj) (RuleKind.not_mem_bindable_of_check hk)
  rw [hplace.2 p rfl] at hc
  obtain ⟨hkind, hinside, hshape, -⟩ := leaf_of_ofCheck hc
  refine mirrors_of_leaf ?_ rfl ?_ hinside hshape
  · rw [Tree.kinds, hkind, Option.toList_some]
  · intro hmismatch
    cases c <;> cases hmismatch

theorem buildsMirror_any (h : t.Comprises .any ts) (ih : ∀ s ∈ ts, BuildsMirror s) : BuildsMirror t := by
  intro allowed parent c place hc hplace
  obtain ⟨-, p, alternatives, -, -, hms, hrow, hlen, rfl⟩ := (ofNode_any_eq_ok_iff h).mp hc
  have hinside : (Position.inside p).Governs (RuleKind.alternativesOf p) (some (.container p)) :=
    Position.governs_inside fun _ hk => RuleKind.alternatives_children hk
  refine mirrors_of_row h rfl ⟨hlen, fun a ha hany => ?_⟩ ?_
  · obtain ⟨s, -, hs⟩ := exists_left_of_forall₂ hrow ha
    have hmem := kind_mem_of_ofNode hs hinside
    rw [hany] at hmem
    exact RuleKind.any_not_mem_alternativesOf p hmem
  · rw [Tree.proper_eq_self hms]
    exact forall₂_imp_of_mem hrow fun s hs a ha => ih s hs ha hinside

theorem buildsMirror_container (h : t.Comprises (.container p) ts) (ih : ∀ s ∈ ts, BuildsMirror s) : BuildsMirror t := by
  intro allowed parent c place hc hplace
  obtain ⟨-, checks, message, hrow, -, rfl⟩ := (ofNode_container_eq_ok_iff h).mp hc
  refine mirrors_of_row h rfl (fun a ha => ?_) (forall₂_imp_of_mem hrow fun s hs a ha => ?_)
  · obtain ⟨s, -, hs⟩ := exists_left_of_forall₂ hrow ha
    exact suits_of_ofNode (fun _ hk => hk) hs
  · exact ih s (Tree.mem_proper.mp hs).1 ha (Position.governs_inside fun _ hk => hk)

theorem buildsMirror_union (h : t.Comprises .union ts) (ih : ∀ s ∈ ts, BuildsMirror s) : BuildsMirror t := by
  intro allowed parent c place hc hplace
  obtain ⟨-, branches, message, hrow, hnodup, -, hlen, rfl⟩ := (ofNode_union_eq_ok_iff h).mp hc
  refine mirrors_of_row h rfl ⟨hlen, hnodup, fun b hb => ?_⟩ ?_
  · obtain ⟨s, -, hs⟩ := exists_left_of_forall₂ hrow hb
    exact container_of_buildsBranch hs
  · rw [inside, List.forall₂_map_right_iff]
    exact forall₂_imp_of_mem hrow fun s hs b hb => ih s (Tree.mem_proper.mp hs).1 hb.2 Position.governs_branch

theorem buildsMirror_prop {name : Value} (h : t.Comprises (.prop name) ts) (ih : ∀ s ∈ ts, BuildsMirror s) : BuildsMirror t := by
  intro allowed parent c place hc hplace
  obtain ⟨-, s, key, inner, rfl, -, hs, rfl⟩ := (ofNode_prop_eq_ok_iff h).mp hc
  refine mirrors_of_row h rfl (kind_mem_of_ofNode hs Position.governs_value) ?_
  rw [proper_singleton hs Position.governs_value fun _ hk => hk]
  exact .cons (ih s List.mem_cons_self hs Position.governs_value) .nil

theorem buildsMirror_item (h : t.Comprises .item ts) (ih : ∀ s ∈ ts, BuildsMirror s) : BuildsMirror t := by
  intro allowed parent c place hc hplace
  obtain ⟨-, s, inner, rfl, hs, rfl⟩ := (ofNode_item_eq_ok_iff h).mp hc
  refine mirrors_of_row h rfl (kind_mem_of_ofNode hs Position.governs_value) ?_
  rw [proper_singleton hs Position.governs_value fun _ hk => hk]
  exact .cons (ih s List.mem_cons_self hs Position.governs_value) .nil

theorem buildsMirror_required {m : Value} (h : t.Comprises (.required m) ts) (ih : ∀ s ∈ ts, BuildsMirror s) :
    BuildsMirror t := by
  intro allowed parent c place hc hplace
  obtain ⟨-, -, ⟨rfl, rfl⟩ | ⟨s, inner, rfl, hs, rfl⟩⟩ := (ofNode_required_eq_ok_iff h).mp hc
  · exact mirrors_of_row h rfl trivial .nil
  · have hmem : inner.kind ∈ RuleKind.wrappable := kind_mem_of_ofNode hs Position.governs_wrapped
    have hne : inner.kind ≠ .required := ne_of_mem_of_not_mem hmem (by decide)
    refine mirrors_of_row h rfl ⟨hmem, hne⟩ ?_
    rw [proper_singleton hs Position.governs_wrapped fun _ hk => RuleKind.wrappable_bindable hk]
    exact .cons (ih s List.mem_cons_self hs Position.governs_wrapped) .nil

theorem buildsMirror (t : Tree) : BuildsMirror t := by
  induction t using built_induct with
  | faulty t h => exact fun hc => absurd hc (h _ _ _)
  | check k m => exact buildsMirror_check k m
  | any t ts h ih => exact buildsMirror_any h ih
  | union t ts h ih => exact buildsMirror_union h ih
  | container p t ts h ih => exact buildsMirror_container h ih
  | prop name t ts h ih => exact buildsMirror_prop h ih
  | item t ts h ih => exact buildsMirror_item h ih
  | required m t ts h ih => exact buildsMirror_required h ih

/-- Every part of a validator that is built has its shape, and the validator as a whole is of a kind that may be bound. The
parts are for the rules in the tree, kind by kind; the mismatch rules alone have left none. -/
theorem shape_of_built {t : Tree} {c : Validator} (h : ofTree t = .ok c) :
    c.kind ∈ RuleKind.bindable ∧ (∀ d, Part d c → d.Shaped) ∧ c.kinds = t.kinds.filter (· ≠ .mismatch) ∧ .mismatch ∉ c.kinds := by
  obtain ⟨hparts, hkinds⟩ := buildsMirror t h Position.governs_value
  refine ⟨kind_mem_of_ofNode h Position.governs_value, hparts, hkinds, ?_⟩
  rw [hkinds]
  simp [Tree.demands]

end Names

open Text.CommonNames

theorem shape_of_built_scores :
    let t : Tree := .group (.container .object) .list [.group (.prop (.str "scores")) .list [.group (.required .null) .list [
      .group .union .list [.group (.container .array) .list [.group .item .list [.group (.container .number) .list [
          .group .any .list [.check (.equal (.number (.int 0))) .null, .check (.range (.number (.int 3)) (.number (.int 9))) .null],
          .check .mismatch (.str "no score")]]],
        .group (.container .date) .list [.check (.equal (.str "2024-01-31")) .null]]]], .check .mismatch (.str "no object")]
    ∃ c, ofTree t = .ok c ∧ (∀ d, Part d c → d.Shaped) ∧ c.kinds = [.container .object, .prop, .required, .union, .container .array,
      .item, .container .number, .any, .equal, .range, .container .date, .equal] := by
  intro t
  obtain ⟨c, hc⟩ : ∃ c, ofTree t = .ok c := ⟨_, rfl⟩
  obtain ⟨-, hparts, hkinds, -⟩ := shape_of_built hc
  exact ⟨c, hc, hparts, hkinds.trans (by decide)⟩

end Validator

end RuleTree
