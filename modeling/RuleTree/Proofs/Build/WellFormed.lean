import RuleTree.Proofs.Build.Frame
import RuleTree.Proofs.Number.Decimal
import RuleTree.Rule.Build
import RuleTree.Text.CommonNames

/-!
# Validators of well formed trees

A tree has a validator (`compile_rule` returns) exactly if it is well formed and the builder can show what it quotes. One way
is by induction on the formation of the tree, the other by induction on the tree; both read off what the builder asks of a
rule and of its children.
-/

namespace RuleTree.Validator

/-! ### Well formed trees have validators -/

/-- Inside a container, the builder knows the container and allows no more than its children. -/
def Surrounds (allowed : List RuleKind) (parent : Option RuleKind) (place : Position) : Prop :=
  ∀ p, place = .inside p → parent = some (.container p) ∧ ∀ k ∈ allowed, k ∈ RuleKind.childrenOf p

theorem surrounds_of_ne {allowed : List RuleKind} {parent : Option RuleKind} {place : Position}
    (h : ∀ p, place ≠ .inside p) : Surrounds allowed parent place := fun p hp => absurd hp (h p)

theorem surrounds_inside {p : Primitive} {allowed : List RuleKind} (h : ∀ k ∈ allowed, k ∈ RuleKind.childrenOf p) :
    Surrounds allowed (some (.container p)) (.inside p) := by
  intro q hq
  cases hq
  exact ⟨rfl, h⟩

theorem mem_of_kind {allowed : List RuleKind} {t : Tree} {k : RuleKind} (h : ∃ j ∈ allowed, t.kind? = some j)
    (hk : t.kind? = some k) : k ∈ allowed := by
  obtain ⟨j, hj, hkind⟩ := h
  cases hk.symm.trans hkind
  exact hj

theorem isShowable_of_isMismatch {s : Tree} (h : s.isMismatch = true) : s.isShowable = true := by
  obtain ⟨m, rfl⟩ := Tree.eq_mismatch_of_isMismatch h
  rfl

section Names

variable [Text.CharacterNames]

theorem kind_of_wellFormed {place : Position} {t : Tree} (h : t.WellFormed place) (hplace : ∀ p, place ≠ .inside p) :
    ∃ k ∈ place.kinds, t.kind? = some k := by
  induction h with
  | required h => exact ⟨.required, List.mem_cons_self, h.kind?⟩
  | wrapped _ ih =>
    obtain ⟨k, hk, hkind⟩ := ih Position.wrapped_ne_inside
    exact ⟨k, RuleKind.wrappable_bindable hk, hkind⟩
  | union h => exact ⟨.union, List.mem_cons_self, h.kind?⟩
  | branch _ ih =>
    obtain ⟨k, hk, hkind⟩ := ih Position.branch_ne_inside
    exact ⟨k, List.mem_cons_of_mem _ hk, hkind⟩
  | @container p t ts h => exact ⟨.container p, RuleKind.mem_values.mpr ⟨p, rfl⟩, h.kind?⟩
  | any => exact absurd rfl (hplace _)
  | prop => exact absurd rfl (hplace _)
  | item => exact absurd rfl (hplace _)
  | check => exact absurd rfl (hplace _)

theorem exists_ofNode_of_wellFormed {place : Position} {t : Tree} (h : t.WellFormed place) :
    ∀ {allowed : List RuleKind} {parent : Option RuleKind}, t.isShowable = true → Surrounds allowed parent place →
      (∃ k ∈ allowed, t.kind? = some k) → ∃ c, ofNode allowed parent t = .ok c := by
  induction h with
  | @required m t ts h hm hlen hts ih =>
    intro allowed parent hshow _ hkind
    have hshown := (Tree.isShowable_of_comprises h).mp hshow
    refine (builds_required_iff h).mpr ⟨⟨mem_of_kind hkind h.kind?, hlen, hm⟩, fun s hs => ?_⟩
    have hkind := kind_of_wellFormed (hts s hs) Position.wrapped_ne_inside
    exact ih s hs (hshown s hs) (surrounds_of_ne Position.wrapped_ne_inside) hkind
  | wrapped _ ih =>
    intro allowed parent hshow _ hkind
    exact ih hshow (surrounds_of_ne Position.wrapped_ne_inside) hkind
  | @union t ts h hm hlen hkinds hts ih =>
    intro allowed parent hshow _ hkind
    have hshown := (Tree.isShowable_of_comprises h).mp hshow
    refine (builds_union_iff h).mpr ⟨⟨mem_of_kind hkind h.kind?, hm, hlen, hkinds⟩, fun s hs => ?_⟩
    have hkind := kind_of_wellFormed (hts s hs) Position.branch_ne_inside
    exact ih s hs (hshown s (Tree.mem_proper.mp hs).1) (surrounds_of_ne Position.branch_ne_inside) hkind
  | branch _ ih =>
    intro allowed parent hshow _ hkind
    exact ih hshow (surrounds_of_ne Position.branch_ne_inside) hkind
  | @container p t ts h hm hkinds _ ih =>
    intro allowed parent hshow _ hkind
    have hshown := (Tree.isShowable_of_comprises h).mp hshow
    refine (builds_container_iff h).mpr ⟨⟨mem_of_kind hkind h.kind?, hm⟩, fun s hs => ?_⟩
    obtain ⟨k, hk, hkind⟩ := hkinds s hs
    exact ih s hs (hshown s (Tree.mem_proper.mp hs).1) (surrounds_inside fun _ hj => hj) ⟨k, List.mem_cons_of_mem _ hk, hkind⟩
  | @any p t ts h hp hlen hkinds _ ih =>
    intro allowed parent hshow hparent hkind
    have hshown := (Tree.isShowable_of_comprises h).mp hshow
    have hms : Tree.mismatches ts = [] := by
      rw [Tree.mismatches, List.filterMap_eq_nil_iff]
      intro s hs
      obtain ⟨k, hk, hkind⟩ := hkinds s hs
      refine Tree.isMismatch_eq_false_iff.mp (Tree.isMismatch_eq_false_of_kind? hkind ?_)
      intro hm
      subst hm
      exact RuleKind.mismatch_not_mem_alternativesOf p hk
    refine (builds_any_iff h).mpr ⟨mem_of_kind hkind h.kind?, p, (hparent p rfl).1, hp, hms, hlen, fun s hs => ?_⟩
    exact ih s hs (hshown s hs) (surrounds_inside fun _ hj => RuleKind.alternatives_children hj) (hkinds s hs)
  | @prop name s t h hname hs ih =>
    intro allowed parent hshow _ hkind
    have hshown := (Tree.isShowable_of_comprises h).mp hshow s List.mem_cons_self
    refine (builds_prop_iff h).mpr ⟨⟨mem_of_kind hkind h.kind?, rfl, hname⟩, List.forall_mem_singleton.mpr ?_⟩
    exact ih hshown (surrounds_of_ne Position.value_ne_inside) (kind_of_wellFormed hs Position.value_ne_inside)
  | @item s t h hs ih =>
    intro allowed parent hshow _ hkind
    have hshown := (Tree.isShowable_of_comprises h).mp hshow s List.mem_cons_self
    refine (builds_item_iff h).mpr ⟨⟨mem_of_kind hkind h.kind?, rfl⟩, List.forall_mem_singleton.mpr ?_⟩
    exact ih hshown (surrounds_of_ne Position.value_ne_inside) (kind_of_wellFormed hs Position.value_ne_inside)
  | @check p c m hc hm =>
    intro allowed parent hshow hparent hkind
    obtain ⟨rfl, hallowed⟩ := hparent p rfl
    obtain ⟨k, hk, hkind⟩ := hkind
    exact builds_check_iff.mpr ⟨⟨k, hk, hkind⟩, (ofCheck_isOk_iff hkind (hallowed k hk)).mpr ⟨⟨hc, hshow⟩, hm⟩⟩

/-! ### Trees with validators are well formed -/

section Formed

variable {t : Tree} {ts : List Tree}

/-- Where a tree with a validator stands, it is well formed. -/
def Formed (t : Tree) : Prop :=
  ∀ {allowed : List RuleKind} {parent : Option RuleKind} {c : Validator} {place : Position},
    ofNode allowed parent t = .ok c → place.Governs allowed parent → t.WellFormed place

theorem wellFormed_of_branch {p : Primitive} {place : Position} (hp : .container p ∈ place.kinds)
    (h : t.WellFormed .branch) : t.WellFormed place := by
  cases place with
  | value => exact .wrapped (.branch h)
  | wrapped => exact .branch h
  | branch => exact h
  | inside q => exact absurd hp (RuleKind.bindable_not_mem_childrenOf (RuleKind.mem_bindable.mpr (.inr (.inr ⟨p, rfl⟩))))

theorem wellFormed_of_wrapped {place : Position} (hu : .union ∈ place.kinds) (h : t.WellFormed .wrapped) :
    t.WellFormed place := by
  cases place with
  | value => exact .wrapped h
  | wrapped => exact h
  | branch => exact absurd hu (by decide)
  | inside q => exact absurd hu (RuleKind.bindable_not_mem_childrenOf (by decide))

theorem formed_container {p : Primitive} (h : t.Comprises (.container p) ts) (ih : ∀ s ∈ ts, Formed s) : Formed t := by
  intro allowed parent c place hc hplace
  obtain ⟨⟨ha, hm⟩, hchild⟩ := (builds_container_iff h).mp ⟨c, hc⟩
  refine wellFormed_of_branch (hplace.1 _ ha) (.container h hm ?_ ?_)
  · intro s hs
    obtain ⟨d, hd⟩ := hchild s hs
    obtain ⟨k, hk, hkind⟩ := kind?_of_ofNode_eq_ok hd
    refine ⟨k, RuleKind.mem_checksOf hk ?_, hkind⟩
    intro hmismatch
    subst hmismatch
    have hproper := (Tree.mem_proper.mp hs).2
    rw [Tree.isMismatch_of_kind? hkind] at hproper
    cases hproper
  · intro s hs
    obtain ⟨d, hd⟩ := hchild s hs
    exact ih s (Tree.mem_proper.mp hs).1 hd (Position.governs_inside fun _ hk => hk)

theorem formed_union (h : t.Comprises .union ts) (ih : ∀ s ∈ ts, Formed s) : Formed t := by
  intro allowed parent c place hc hplace
  obtain ⟨⟨ha, hm, hlen, hnodup⟩, hbranches⟩ := (builds_union_iff h).mp ⟨c, hc⟩
  refine wellFormed_of_wrapped (hplace.1 _ ha) (.union h hm hlen hnodup fun s hs => ?_)
  obtain ⟨d, hd⟩ := hbranches s hs
  exact ih s (Tree.mem_proper.mp hs).1 hd Position.governs_branch

theorem formed_any (h : t.Comprises .any ts) (ih : ∀ s ∈ ts, Formed s) : Formed t := by
  intro allowed parent c place hc hplace
  obtain ⟨ha, p, rfl, hp, -, hlen, hchild⟩ := (builds_any_iff h).mp ⟨c, hc⟩
  obtain ⟨q, rfl⟩ := Position.exists_inside (hplace.1 _ ha) (by decide)
  cases hplace.2 q rfl
  refine .any h hp hlen ?_ ?_
  · intro s hs
    obtain ⟨d, hd⟩ := hchild s hs
    exact kind?_of_ofNode_eq_ok hd
  · intro s hs
    obtain ⟨d, hd⟩ := hchild s hs
    exact ih s hs hd (Position.governs_inside fun _ hk => RuleKind.alternatives_children hk)

theorem formed_prop {name : Value} (h : t.Comprises (.prop name) ts) (ih : ∀ s ∈ ts, Formed s) : Formed t := by
  intro allowed parent c place hc hplace
  obtain ⟨⟨ha, hlen, hname⟩, hchild⟩ := (builds_prop_iff h).mp ⟨c, hc⟩
  obtain ⟨s, rfl⟩ := List.length_eq_one_iff.mp hlen
  obtain ⟨inner, hs⟩ := List.forall_mem_singleton.mp hchild
  have hvalue : s.WellFormed .value := ih s List.mem_cons_self hs Position.governs_value
  have hkind := hplace.1 _ ha
  obtain ⟨p, rfl⟩ := Position.exists_inside hkind (by decide)
  obtain rfl := RuleKind.prop_mem_childrenOf_iff.mp hkind
  exact .prop h hname hvalue

theorem formed_item (h : t.Comprises .item ts) (ih : ∀ s ∈ ts, Formed s) : Formed t := by
  intro allowed parent c place hc hplace
  obtain ⟨⟨ha, hlen⟩, hchild⟩ := (builds_item_iff h).mp ⟨c, hc⟩
  obtain ⟨s, rfl⟩ := List.length_eq_one_iff.mp hlen
  obtain ⟨inner, hs⟩ := List.forall_mem_singleton.mp hchild
  have hvalue : s.WellFormed .value := ih s List.mem_cons_self hs Position.governs_value
  have hkind := hplace.1 _ ha
  obtain ⟨p, rfl⟩ := Position.exists_inside hkind (by decide)
  obtain rfl := RuleKind.item_mem_childrenOf_iff.mp hkind
  exact .item h hvalue

theorem formed_required {m : Value} (h : t.Comprises (.required m) ts) (ih : ∀ s ∈ ts, Formed s) : Formed t := by
  intro allowed parent c place hc hplace
  obtain ⟨⟨ha, hlen, hm⟩, hchild⟩ := (builds_required_iff h).mp ⟨c, hc⟩
  have hvalue : t.WellFormed .value := by
    refine .required h hm hlen fun s hs => ?_
    obtain ⟨inner, hinner⟩ := hchild s hs
    exact ih s hs hinner Position.governs_wrapped
  cases place with
  | value => exact hvalue
  | inside p => exact absurd (hplace.1 _ ha) (RuleKind.bindable_not_mem_childrenOf List.mem_cons_self)
  | _ => exact absurd (hplace.1 _ ha) (by decide)

theorem formed_check (k : Check) (m : Value) : Formed (.check k m) := by
  intro allowed parent c place hc hplace
  obtain ⟨⟨j, ha, hk⟩, hd⟩ := builds_check_iff.mp ⟨c, hc⟩
  have hj := hplace.1 j ha
  obtain ⟨p, rfl⟩ := Position.exists_inside hj (RuleKind.not_mem_bindable_of_check hk)
  obtain rfl := hplace.2 p rfl
  obtain ⟨⟨hwf, -⟩, hm⟩ := (ofCheck_isOk_iff hk hj).mp hd
  exact .check hwf hm

theorem formed (t : Tree) : Formed t := by
  induction t using built_induct with
  | faulty t h => exact fun hc => absurd hc (h _ _ _)
  | check k m => exact formed_check k m
  | any t ts h ih => exact formed_any h ih
  | union t ts h ih => exact formed_union h ih
  | container p t ts h ih => exact formed_container h ih
  | prop name t ts h ih => exact formed_prop h ih
  | item t ts h ih => exact formed_item h ih
  | required m t ts h ih => exact formed_required h ih

end Formed

/-! ### Trees with validators can be shown -/

section Shown

variable {t : Tree} {ts : List Tree}

/-- What has a validator anywhere can be shown. -/
def Shown (t : Tree) : Prop := ∀ allowed parent, (∃ c, ofNode allowed parent t = .ok c) → t.isShowable = true

theorem shown_group {g : Group} (h : t.Comprises g ts) (ih : ∀ s ∈ ts, Shown s) : Shown t := by
  intro allowed parent hc
  have hchildren := ((Group.builds_iff h).mp hc).2
  refine (Tree.isShowable_of_comprises h).mpr fun s hs => ?_
  cases hm : s.isMismatch with
  | true => exact isShowable_of_isMismatch hm
  | false => exact ih s hs _ _ (hchildren s (Group.mem_demands hs hm))

theorem shown_check (k : Check) (m : Value) : Shown (.check k m) := by
  intro allowed parent hc
  obtain ⟨-, c, hc⟩ := builds_check_iff.mp hc
  cases k with
  | equal v => exact isWritable_of_ofEqual hc
  | _ => rfl

theorem shown (t : Tree) : Shown t := by
  induction t using Tree.induct with
  | stray v => exact fun _ _ _ => rfl
  | check k m => exact shown_check k m
  | unlisted g rules => exact fun _ _ _ => rfl
  | group g row ts ih => exact shown_group (.group g row ts) ih

end Shown

/-- A tree has a validator exactly if it is well formed and the values that its `equal` rules expect can be written. -/
theorem ofTree_isOk_iff_wellFormed (t : Tree) :
    (∃ c, ofTree t = .ok c) ↔ t.WellFormed .value ∧ t.isShowable = true := by
  constructor
  · rintro ⟨c, hc⟩
    exact ⟨formed t hc Position.governs_value, shown t _ _ ⟨c, hc⟩⟩
  · rintro ⟨h, hshow⟩
    have hkind := kind_of_wellFormed h Position.value_ne_inside
    exact exists_ofNode_of_wellFormed h hshow (surrounds_of_ne Position.value_ne_inside) hkind

end Names

open Text.CommonNames

/-- A well formed tree without a validator: an integer is expected that the builder cannot show. -/
theorem unwritable_not_built :
    ∃ t : Tree, t = .container .number [.equal (.number (.int Decimal.leastUnwritable))] ∧ t.WellFormed .value ∧
      ¬∃ c, ofTree t = .ok c := by
  let t : Tree := .container .number [.equal (.number (.int Decimal.leastUnwritable))]
  have hrow : t.Comprises (.container .number) [.equal (.number (.int Decimal.leastUnwritable))] := .group _ _ _
  refine ⟨t, rfl, .wrapped (.branch (.container hrow ?_ ?_ ?_)), fun h => ?_⟩
  · exact ⟨Nat.zero_le 1, List.forall_mem_nil _⟩
  · exact List.forall_mem_singleton.mpr ⟨.equal, by decide, rfl⟩
  · exact List.forall_mem_singleton.mpr (.check ⟨_, rfl⟩ (.inl rfl))
  · have hshow : t.isShowable = true := shown t _ _ h
    have hvalue : Decimal.isWritable Decimal.leastUnwritable = true :=
      (Tree.isShowable_of_comprises hrow).mp hshow _ List.mem_cons_self
    rw [Decimal.isWritable_leastUnwritable] at hvalue
    cases hvalue

end RuleTree.Validator
