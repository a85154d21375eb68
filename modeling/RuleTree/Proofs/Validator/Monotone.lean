import RuleTree.Proofs.Build.Frame
import RuleTree.Proofs.Rule.Context
import RuleTree.Proofs.Validator.Location
import RuleTree.Proofs.Validator.Meaning
import RuleTree.Rule.Build
import RuleTree.Text.CommonNames

/-!
# Monotonicity

A rule that takes a value may be replaced, wherever it occurs, by one of its kind that has a validator. The whole has a
validator again, and if the replacement accepts less, then the whole accepts nothing that it rejected before. It may accept what
it said nothing of: a run that cannot tell the limit it fails stops the alternatives that follow.
-/

namespace RuleTree

/-! ### Frames -/

section Frames

variable {allowed : List RuleKind} {parent : Option RuleKind} {g : Group} {s s' : Tree} {ts ts' before after : List Tree}

/-- Of the children of a group, its frame depends on how many there are, on their kinds and on the mismatch rules. -/
theorem Group.frame_congr (hlen : ts.length = ts'.length) (hms : Tree.mismatches ts = Tree.mismatches ts')
    (hkinds : (Tree.proper ts).map Tree.kind? = (Tree.proper ts').map Tree.kind?) :
    g.Frame allowed parent ts ↔ g.Frame allowed parent ts' := by
  have hproper : (Tree.proper ts).length = (Tree.proper ts').length := by
    rw [← List.length_map (f := Tree.kind?), hkinds, List.length_map]
  cases g <;> simp only [Group.Frame, Tree.MismatchOnce, hlen, hms, hkinds, hproper]

theorem Group.mem_demands_insert (h : s.isMismatch = false) {u : Tree} :
    u ∈ g.demands (before ++ s :: after) ↔ u = s ∨ u ∈ g.demands (before ++ after) := by
  have happend : Tree.proper (before ++ after) = Tree.proper before ++ Tree.proper after := List.filter_append ..
  cases g with
  | container p =>
    simp only [Group.demands, Tree.proper_insert h, happend, List.mem_append, List.mem_cons]
    exact or_left_comm
  | union =>
    simp only [Group.demands, Tree.proper_insert h, happend, List.mem_append, List.mem_cons]
    exact or_left_comm
  | _ =>
    simp only [Group.demands, List.mem_append, List.mem_cons]
    exact or_left_comm

variable [Text.CharacterNames]

/-- One child of a group exchanged: the group has a validator again if the new child is of the same kind and has one there. -/
theorem builds_insert {row : Row} (hs : s.isMismatch = false) (hs' : s'.isMismatch = false) (hkind : s'.kind? = s.kind?)
    (hchild : ∀ {allowed parent}, (∃ d, Validator.ofNode allowed parent s = .ok d) →
      ∃ d, Validator.ofNode allowed parent s' = .ok d)
    (h : ∃ c, Validator.ofNode allowed parent (.group g row (before ++ s :: after)) = .ok c) :
    ∃ c, Validator.ofNode allowed parent (.group g row (before ++ s' :: after)) = .ok c := by
  rw [Group.builds_iff (.group g row _)] at h ⊢
  obtain ⟨hframe, hchildren⟩ := h
  refine ⟨(Group.frame_congr ?_ ?_ ?_).mp hframe, ?_⟩
  · simp only [List.length_append, List.length_cons]
  · rw [Tree.mismatches_insert hs, Tree.mismatches_insert hs']
  · rw [Tree.proper_insert hs, Tree.proper_insert hs', List.map_append, List.map_append, List.map_cons, List.map_cons, hkind]
  · intro u hu
    rcases (Group.mem_demands_insert hs').mp hu with rfl | hu
    · exact hchild (hchildren s ((Group.mem_demands_insert hs).mpr (.inl rfl)))
    · exact hchildren u ((Group.mem_demands_insert hs).mpr (.inr hu))

end Frames

namespace Validator

section Values

variable {allowed allowed' : List RuleKind} {parent parent' : Option RuleKind} {t : Tree} {c : Validator} {k : RuleKind}

theorem isMismatch_of_bindable_kind (hk : t.kind? = some k) (hb : k ∈ RuleKind.bindable) : t.isMismatch = false := by
  refine Tree.isMismatch_eq_false_of_kind? hk fun hm => ?_
  subst hm
  exact absurd hb (by decide)

variable [Text.CharacterNames]

/-- A rule that takes a value has one validator, wherever its kind is allowed. -/
theorem ofNode_eq_ok_of_bindable (h : ofNode allowed parent t = .ok c) (hk : t.kind? = some k)
    (hb : k ∈ RuleKind.bindable) (ha : k ∈ allowed') : ofNode allowed' parent' t = .ok c := by
  rcases leaf_or_group_of_ofNode_eq_ok h with ⟨l, m, rfl⟩ | ⟨g, ts, hg⟩
  · exact absurd hb (RuleKind.not_mem_bindable_of_check hk)
  · rw [hg.kind?] at hk
    cases g with
    | union =>
      cases hk
      exact (ofNode_union_eq_ok_iff hg).mpr ⟨ha, ((ofNode_union_eq_ok_iff hg).mp h).2⟩
    | container p =>
      cases hk
      exact (ofNode_container_eq_ok_iff hg).mpr ⟨ha, ((ofNode_container_eq_ok_iff hg).mp h).2⟩
    | required m =>
      cases hk
      exact (ofNode_required_eq_ok_iff hg).mpr ⟨ha, ((ofNode_required_eq_ok_iff hg).mp h).2⟩
    | kindless name => cases hk
    | _ =>
      cases hk
      exact absurd hb (by decide)

end Values

/-! ### Contexts -/

section Contexts

variable {allowed : List RuleKind} {parent : Option RuleKind} {s s' : Tree} {c d d' : Validator} {k : RuleKind}

variable [Text.CharacterNames]

/-- What occurs in a tree with a validator and takes a value has a validator by itself. -/
theorem exists_ofTree_of_fill (C : Tree.Context) (hk : s.kind? = some k) (hb : k ∈ RuleKind.bindable)
    (h : ∃ c, ofNode allowed parent (C.fill s) = .ok c) : ∃ d, ofTree s = .ok d := by
  induction C generalizing allowed parent with
  | hole =>
    obtain ⟨c, hc⟩ := h
    exact ⟨c, ofNode_eq_ok_of_bindable hc hk hb hb⟩
  | group g row before inner after ih =>
    rw [Tree.Context.fill, Group.builds_iff (.group g row _)] at h
    have hinner := Tree.Context.isMismatch_fill (isMismatch_of_bindable_kind hk hb) inner
    exact ih (h.2 _ ((Group.mem_demands_insert hinner).mpr (.inl rfl)))

theorem builds_fill (C : Tree.Context) (hk : s.kind? = some k) (hb : k ∈ RuleKind.bindable) (hkind : s'.kind? = s.kind?)
    (hd' : ofTree s' = .ok d') (h : ∃ c, ofNode allowed parent (C.fill s) = .ok c) :
    ∃ c', ofNode allowed parent (C.fill s') = .ok c' := by
  induction C generalizing allowed parent with
  | hole =>
    obtain ⟨c, hc⟩ := h
    obtain ⟨j, hj, hjs⟩ := kind?_of_ofNode_eq_ok hc
    have hjk : j = k := Option.some.inj (hjs.symm.trans hk)
    rw [hjk] at hj
    exact ⟨d', ofNode_eq_ok_of_bindable hd' (hkind.trans hk) hb hj⟩
  | group g row before inner after ih =>
    have hs := isMismatch_of_bindable_kind hk hb
    have hs' := isMismatch_of_bindable_kind (hkind.trans hk) hb
    exact builds_insert (inner.isMismatch_fill hs) (inner.isMismatch_fill hs') (inner.kind?_fill hkind) ih h

end Contexts

/-- One validator accepts only genuine values that the other accepts. -/
def Refines (d c : Validator) : Prop := ∀ v : Value, v.Genuine → d.accepts v = true → c.accepts v = true

/-- One validator rejects no genuine value that the other accepts. -/
def Spares (c d : Validator) : Prop := ∀ v : Value, v.Genuine → d.accepts v = true → c.rejects v = false

section Parts

variable {C : Tree.Context} {s s' t t' : Tree} {c c' d d' : Validator} {k : RuleKind} {v : Value}

theorem Refines.spares (h : d.Refines c) : c.Spares d := fun v hv hd => rejects_eq_false_of_accepts (h v hv hd)

/-- Of two rows with the same trees the validators are the same. -/
theorem subset_of_built {f : Tree → Build Validator} {ts ts' : List Tree} {cs cs' : List Validator}
    (h : List.Forall₂ (fun u e => f u = .ok e) ts cs) (h' : List.Forall₂ (fun u e => f u = .ok e) ts' cs')
    (hsub : ∀ u ∈ ts', u ∈ ts) : ∀ e ∈ cs', e ∈ cs := by
  intro e' he'
  obtain ⟨u, hu, hbuilt'⟩ := exists_left_of_forall₂ h' he'
  obtain ⟨e, he, hbuilt⟩ := exists_right_of_forall₂ h (hsub u hu)
  rwa [Except.ok.inj (hbuilt'.symm.trans hbuilt)]

theorem refines_container {p : Primitive} {cs cs' : List Validator} {m m' : Option String} (h : ∀ e ∈ cs, e ∈ cs') :
    (container p cs' m').Refines (container p cs m) := by
  intro v _ hv
  rw [accepts_container_iff] at hv ⊢
  exact hv.imp_right fun ⟨seen, hseen, hchecks⟩ => ⟨seen, hseen, fun e he => hchecks e (h e he)⟩

variable [Text.CharacterNames]

theorem accepts_ofTree_iff (h : ofTree t = .ok c) (hv : v.Genuine) : c.accepts v = true ↔ t.Holds v ∧ ¬t.Stumbles v := by
  rw [accepts_iff_run_eq_ok]
  exact (says_iff (agrees t h (.inl fun _ hk => hk) hv)).1

theorem rejects_ofTree_eq_false_iff (h : ofTree t = .ok c) (hv : v.Genuine) :
    c.rejects v = false ↔ t.Holds v ∨ t.Stumbles v := by
  rw [← Bool.not_eq_true, rejects, (says_iff (agrees t h (.inl fun _ hk => hk) hv)).2.1, not_and_or, not_not, not_not]

theorem spares_iff_covers (h : ofTree t = .ok c) (h' : ofTree t' = .ok c') : c.Spares c' ↔ t.Covers t' := by
  refine forall_congr' fun v => forall_congr' fun hv => ?_
  rw [accepts_ofTree_iff h' hv, rejects_ofTree_eq_false_iff h hv, and_imp]

/-- What a validator does not reject, it accepts, if everything that its tree may have to tell can be written. -/
theorem Spares.refines (h : c.Spares d) (hc : ofTree t = .ok c) (ht : t.isTellable = true) : d.Refines c := by
  intro v hv hd
  have hholds : t.Holds v := by
    rcases (rejects_ofTree_eq_false_iff hc hv).mp (h v hv hd) with hholds | hstumbles
    · exact hholds
    · exact absurd hstumbles (Tree.not_stumbles_of_isTellable ht v)
  exact (accepts_ofTree_iff hc hv).mpr ⟨hholds, Tree.not_stumbles_of_isTellable ht v⟩

theorem spares_fill (hk : s.kind? = some k) (hb : k ∈ RuleKind.bindable) (hkind : s'.kind? = s.kind?)
    (hd : ofTree s = .ok d) (hd' : ofTree s' = .ok d') (h : d.Spares d') (hc : ofTree (C.fill s) = .ok c)
    (hc' : ofTree (C.fill s') = .ok c') : c.Spares c' := by
  rw [spares_iff_covers hd hd'] at h
  rw [spares_iff_covers hc hc']
  have hs := isMismatch_of_bindable_kind hk hb
  have hs' := isMismatch_of_bindable_kind (hkind.trans hk) hb
  exact Tree.Context.covers_fill hs hs' h C

/-- The order of the children of a container has no part in what it accepts. -/
theorem container_perm {p : Primitive} {ts ts' : List Tree} (h : s.Comprises (.container p) ts)
    (h' : s'.Comprises (.container p) ts') (hperm : ts'.Perm ts) (hd : ofTree s = .ok d) :
    ∃ d', ofTree s' = .ok d' ∧ d'.Refines d ∧ d.Refines d' := by
  have hproper : ∀ u, u ∈ Tree.proper ts' ↔ u ∈ Tree.proper ts := fun u => (hperm.filter _).mem_iff
  have hms : (Tree.mismatches ts').Perm (Tree.mismatches ts) := hperm.filterMap _
  obtain ⟨⟨ha, hlen, hmessages⟩, hchildren⟩ := (builds_container_iff h).mp ⟨d, hd⟩
  obtain ⟨d', hd'⟩ : ∃ d', ofTree s' = .ok d' := by
    refine (builds_container_iff h').mpr ⟨⟨ha, ?_, ?_⟩, ?_⟩
    · rw [hms.length_eq]
      exact hlen
    · exact fun m hm => hmessages m (hms.mem_iff.mp hm)
    · exact fun u hu => hchildren u ((hproper u).mp hu)
  obtain ⟨-, cs, m, hcs, -, rfl⟩ := (ofNode_container_eq_ok_iff h).mp hd
  obtain ⟨-, cs', m', hcs', -, rfl⟩ := (ofNode_container_eq_ok_iff h').mp hd'
  refine ⟨_, hd', ?_, ?_⟩
  · exact refines_container (subset_of_built hcs' hcs fun u hu => (hproper u).mpr hu)
  · exact refines_container (subset_of_built hcs hcs' fun u hu => (hproper u).mp hu)

end Parts

/-- A rule that takes a value has a validator wherever it occurs in a tree that has one. Replaced by another of its kind that
accepts less, the whole has a validator and accepts nothing that it rejected before: it accepts less if everything that it may
have to tell can be written. Replaced by one that accepts the same, such as a container with its children in another order, the
whole accepts the same, but for the runs that end without a verdict. -/
theorem replaced_rejects_more [Text.CharacterNames] {C : Tree.Context} {s : Tree} {c : Validator} {k : RuleKind}
    (hc : ofTree (C.fill s) = .ok c) (hk : s.kind? = some k) (hb : k ∈ RuleKind.bindable) :
    ∃ d, ofTree s = .ok d ∧
      (∀ s' d', s'.kind? = some k → ofTree s' = .ok d' → d'.Refines d →
        ∃ c', ofTree (C.fill s') = .ok c' ∧ c.Spares c' ∧ ((C.fill s).isTellable = true → c'.Refines c) ∧
          (d.Refines d' → c'.Spares c ∧ ((C.fill s').isTellable = true → c.Refines c'))) ∧
      (∀ p ts s' ts', s.Comprises (.container p) ts → s'.Comprises (.container p) ts' → ts'.Perm ts →
        ∃ d' c', ofTree s' = .ok d' ∧ ofTree (C.fill s') = .ok c' ∧ d'.Refines d ∧ d.Refines d' ∧ c.Spares c' ∧
          c'.Spares c ∧ ((C.fill s).isTellable = true → c'.Refines c) ∧ ((C.fill s').isTellable = true → c.Refines c')) := by
  obtain ⟨d, hd⟩ := exists_ofTree_of_fill C hk hb ⟨c, hc⟩
  have hreplaced : ∀ s' d', s'.kind? = some k → ofTree s' = .ok d' → d'.Refines d →
      ∃ c', ofTree (C.fill s') = .ok c' ∧ c.Spares c' ∧ ((C.fill s).isTellable = true → c'.Refines c) ∧
        (d.Refines d' → c'.Spares c ∧ ((C.fill s').isTellable = true → c.Refines c')) := by
    intro s' d' hk' hd' hless
    have hkind : s'.kind? = s.kind? := hk'.trans hk.symm
    obtain ⟨c', hc'⟩ := builds_fill C hk hb hkind hd' ⟨c, hc⟩
    have hspares : c.Spares c' := spares_fill hk hb hkind hd hd' hless.spares hc hc'
    refine ⟨c', hc', hspares, hspares.refines hc, fun hmore => ?_⟩
    have hback : c'.Spares c := spares_fill hk' hb hkind.symm hd' hd hmore.spares hc' hc
    exact ⟨hback, hback.refines hc'⟩
  refine ⟨d, hd, hreplaced, ?_⟩
  intro p ts s' ts' hs hs' hperm
  obtain ⟨d', hd', hless, hmore⟩ := container_perm hs hs' hperm hd
  have hk' : s'.kind? = some k := by rw [← hk, hs.kind?, hs'.kind?]
  obtain ⟨c', hc', hspares, hrefines, hback⟩ := hreplaced s' d' hk' hd' hless
  exact ⟨d', c', hd', hc', hless, hmore, hspares, (hback hmore).1, hrefines, (hback hmore).2⟩

open Text.CommonNames

/-- The texts of a row inside a mapping are asked to be longer. -/
theorem replaced_rejects_more_longer :
    ∃ (C : Tree.Context) (s s' : Tree) (c c' : Validator),
      C = .group (.container .object) .fixed [] (.group (.prop (.str "tags")) .fixed [] (.group (.container .array) .fixed []
        (.group .item .fixed [] (.group (.required .null) .fixed [] .hole []) []) []) []) [.mismatch] ∧
      s = .container .string [.bound .min (.number (.int 1))] ∧
      s' = .container .string [.bound .min (.number (.int 1)), .bound .min (.number (.int 3))] ∧
      ofTree (C.fill s) = .ok c ∧ ofTree (C.fill s') = .ok c' ∧ c'.Refines c := by
  let C : Tree.Context := .group (.container .object) .fixed [] (.group (.prop (.str "tags")) .fixed []
    (.group (.container .array) .fixed [] (.group .item .fixed [] (.group (.required .null) .fixed [] .hole []) []) []) [])
    [.mismatch]
  let s : Tree := .container .string [.bound .min (.number (.int 1))]
  let s' : Tree := .container .string [.bound .min (.number (.int 1)), .bound .min (.number (.int 3))]
  obtain ⟨c, hc⟩ : ∃ c, ofTree (C.fill s) = .ok c := ⟨_, rfl⟩
  obtain ⟨d', hd'⟩ : ∃ d', ofTree s' = .ok d' := ⟨_, rfl⟩
  obtain ⟨d, hd, hreplaced, -⟩ := replaced_rejects_more (C := C) (s := s) (k := .container .string) hc rfl (by decide)
  have hless : d'.Refines d := by
    cases hd
    cases hd'
    exact refines_container fun e he => List.mem_cons.mpr (.inl (List.mem_singleton.mp he))
  obtain ⟨c', hc', -, hrefines, -⟩ := hreplaced s' d' rfl hd' hless
  exact ⟨C, s, s', c, c', rfl, rfl, rfl, hc, hc', hrefines rfl⟩

/-- A union of texts and dates where no text is long enough, and the same union where no text is equal to both of two: the other
branch accepts a date, and is never reached where the first cannot tell its limit. -/
theorem replaced_accepts_more :
    ∃ (C : Tree.Context) (s s' : Tree) (c c' d d' : Validator) (v : Value),
      C = .group .union .fixed [] .hole [.container .date []] ∧
      s = .container .string [.bound .min (.number (.int Decimal.leastUnwritable))] ∧
      s' = .container .string [.equal (.str "x"), .equal (.str "y")] ∧ v = .str "2020-01-01" ∧ v.Genuine ∧
      ofTree s = .ok d ∧ ofTree s' = .ok d' ∧ d'.Refines d ∧ ofTree (C.fill s) = .ok c ∧ ofTree (C.fill s') = .ok c' ∧
      c'.accepts v = true ∧ c.run v = .error .unwritable := by
  let limit : Tree := .bound .min (.number (.int Decimal.leastUnwritable))
  let s : Tree := .container .string [limit]
  let s' : Tree := .container .string [.equal (.str "x"), .equal (.str "y")]
  let C : Tree.Context := .group .union .fixed [] .hole [.container .date []]
  let v : Value := .str "2020-01-01"
  have hv : v.Genuine := trivial
  obtain ⟨d, hd⟩ : ∃ d, ofTree s = .ok d := ⟨_, rfl⟩
  obtain ⟨d', hd'⟩ : ∃ d', ofTree s' = .ok d' := ⟨_, rfl⟩
  obtain ⟨c, hc⟩ : ∃ c, ofTree (C.fill s) = .ok c := ⟨_, rfl⟩
  obtain ⟨c', hc'⟩ : ∃ c', ofTree (C.fill s') = .ok c' := ⟨_, rfl⟩
  have hs : s.Comprises (.container .string) [limit] := .group _ _ _
  have hs' : s'.Comprises (.container .string) [.equal (.str "x"), .equal (.str "y")] := .group _ _ _
  have hC : (C.fill s).Comprises .union [s, .container .date []] := .group _ _ _
  have hless : d'.Refines d := by
    intro w hw haccepts
    rcases (Tree.holds_of_comprises hs').mp ((accepts_ofTree_iff hd' hw).mp haccepts).1 with rfl | ⟨seen, hseen, hall⟩
    · cases hd
      rfl
    · have hx : seen.Matches (.str "x") := hall _ List.mem_cons_self
      have hy : seen.Matches (.str "y") := hall _ (List.mem_cons_of_mem _ List.mem_cons_self)
      cases hseen with
      | string t => exact absurd (hx.symm.trans hy) (by decide)
  have hstumbles : (C.fill s).Stumbles v := by
    have hnull : v ≠ .null := by simp [v]
    have hlimit : limit.Stumbles v := Tree.stumbles_of_measure? rfl rfl
    have hbranch : s.Stumbles v := (Tree.stumbles_of_comprises hs).mpr ⟨v, .string _, .inl hlimit⟩
    exact (Tree.stumbles_of_comprises hC).mpr ⟨hnull, .inl hbranch⟩
  have haccepts : c'.accepts v = true := by
    cases hc'
    rfl
  have hrun : c.run v = .error .unwritable := (says_iff (agrees _ hc (.inl fun _ hk => hk) hv)).2.2.mpr hstumbles
  exact ⟨C, s, s', c, c', d, d', v, rfl, rfl, rfl, rfl, hv, hd, hd', hless, hc, hc', haccepts, hrun⟩

end Validator

end RuleTree
