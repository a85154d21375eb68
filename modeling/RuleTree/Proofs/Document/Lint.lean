import RuleTree.Proofs.Build.Reread
import RuleTree.Proofs.Build.WellFormed
import RuleTree.Proofs.Document.NormalForm
import RuleTree.Rule.Build
import RuleTree.Text.CommonNames

/-!
# Building from a normal form

A document and its normal form mostly agree on whether there is a validator. They do not where the text of a date means
something else than the date: a text may be compared with texts, and the text of a moment may be read as another moment, so
that a beginning and an end change their order. Main result: normal forms are read again if no field was left out, they are
their own normal forms, and the two disagree on a validator for these reasons only.
-/

namespace RuleTree

open Document (written)
open Validator (IsMessage ofNode)

/-! ### Leaves -/

/-- A value is read at an earlier millisecond than another. -/
def Value.Precedes (first last : Value) : Prop :=
  ∃ begins ends, first.stamp? = some begins ∧ last.stamp? = some ends ∧ begins < ends

/-- Whether the bounds of a period are still in order when they are texts. -/
def Check.StaysOrdered (_ : Option RuleKind) : Check → Prop
  | .between first last => (written first).Precedes (written last)
  | _ => True

/-- Whether the bounds of a period are in order, and no date is compared with texts. -/
def Check.WasOrdered (parent : Option RuleKind) : Check → Prop
  | .between first last => first.Precedes last
  | .equal v => parent = some (.container .string) → v.kind ≠ .primitive .date
  | _ => True

section Leaves

variable {p : Primitive} {v : Value} {c : Check}

theorem Value.place?_written : (written v).place? = v.place? := by
  cases v <;> rfl

theorem Value.isDate_written : (written v).IsDate ↔ v.IsDate := by
  cases v with
  | date d => exact iff_of_true (.inr (.inr ⟨d.iso, _, rfl, read?_date d⟩)) (.inl ⟨d, rfl⟩)
  | moment m => exact iff_of_true (.inr (.inr ⟨m.iso, _, rfl, read?_iso m⟩)) (.inr (.inl ⟨m, rfl⟩))
  | _ => exact Iff.rfl

theorem Value.isWritable_written (v : Value) : (written v).isWritable = v.isWritable := by
  cases v <;> rfl

theorem Check.isShowable_reread (c : Check) : c.reread.isShowable = c.isShowable := by
  cases c with
  | equal v => exact Value.isWritable_written v
  | _ => rfl

theorem Value.kind_written (v : Value) : (written v).kind = v.kind ∨ (written v).kind = .primitive .string := by
  cases v with
  | date d => exact .inr rfl
  | moment m => exact .inr rfl
  | _ => exact .inl rfl

theorem Primitive.compares_written (h : p.Compares v) : p.Compares (written v) := by
  cases p with
  | date => exact Value.isDate_written.mpr h
  | number => rwa [Compares, Value.place?_written]
  | _ =>
    have hdate : v.kind ≠ .primitive .date := by
      intro hk
      cases hk.symm.trans h
    rwa [(Value.faithful_of_kind_ne hdate).1]

/-- A date is compared with texts only when it has become one. -/
theorem Primitive.compares_iff_of_written (h : p.Compares (written v)) :
    p.Compares v ↔ (p = .string → v.kind ≠ .primitive .date) := by
  by_cases hdate : v.kind = .primitive .date
  · cases p with
    | date => exact iff_of_true (Value.isDate_written.mp h) fun hp => by cases hp
    | number =>
      rw [Compares, Value.place?_written] at h
      exact iff_of_true h fun hp => by cases hp
    | string =>
      refine iff_of_false ?_ fun hne => hne rfl hdate
      intro hk
      cases hdate.symm.trans hk
    | _ =>
      rcases Value.kind_written v with hkind | hkind
      · cases hdate.symm.trans (hkind.symm.trans h)
      · cases hkind.symm.trans h
  · rw [(Value.faithful_of_kind_ne hdate).1] at h
    exact iff_of_true h fun _ => hdate

variable [Text.CharacterNames]

theorem Check.wellFormed_reread_iff (h : c.WellFormed p) :
    c.reread.WellFormed p ↔ c.StaysOrdered (some (.container p)) := by
  cases c with
  | equal v => exact iff_of_true (Primitive.compares_written h) trivial
  | bound b limit =>
    refine iff_of_true ?_ trivial
    rwa [reread, WellFormed, Value.place?_written]
  | range min max =>
    refine iff_of_true ?_ trivial
    rwa [reread, WellFormed, Value.place?_written, Value.place?_written]
  | pattern regex =>
    obtain ⟨literal, q, rfl, hq⟩ := h
    exact iff_of_true ⟨literal, q, rfl, hq⟩ trivial
  | dateBound b v => exact iff_of_true (Value.isDate_written.mpr h) trivial
  | between first last => exact Iff.rfl
  | mismatch => exact h.elim
  | kindless name v => exact h.elim

theorem Check.wellFormed_iff_of_reread (hc : c.Documented) (h : c.reread.WellFormed p) :
    c.WellFormed p ↔ c.WasOrdered (some (.container p)) := by
  cases c with
  | equal v => simpa [WellFormed, WasOrdered] using Primitive.compares_iff_of_written h
  | bound b limit =>
    rw [reread, WellFormed, Value.place?_written] at h
    exact iff_of_true h trivial
  | range min max =>
    rw [reread, WellFormed, Value.place?_written, Value.place?_written] at h
    exact iff_of_true h trivial
  | pattern regex =>
    refine iff_of_true ?_ trivial
    rcases hc with rfl | ⟨s, rfl⟩
    · exact h
    · exact h
  | dateBound b v => exact iff_of_true (Value.isDate_written.mp h) trivial
  | between first last => exact Iff.rfl
  | mismatch => exact h.elim
  | kindless name v => exact h.elim

end Leaves

/-! ### Leaves of a tree -/

/-- Every leaf of a tree has a property that depends on the rule inside which it stands. -/
inductive Tree.EveryLeaf (P : Option RuleKind → Check → Prop) : Option RuleKind → Tree → Prop
  | check {parent : Option RuleKind} {c : Check} {m : Value} (h : P parent c) : EveryLeaf P parent (.check c m)
  | group {parent : Option RuleKind} {g : Group} {row : Row} {ts : List Tree}
      (hts : ∀ t ∈ ts, EveryLeaf P (g.encloses parent) t) : EveryLeaf P parent (.group g row ts)

section EveryLeaf

variable {P : Option RuleKind → Check → Prop} {parent : Option RuleKind}

theorem Tree.everyLeaf_check_iff {c : Check} {m : Value} : EveryLeaf P parent (.check c m) ↔ P parent c := by
  constructor
  · intro h
    cases h with
    | check h => exact h
  · exact .check

/-- Mismatch rules demand nothing that could be asked of a leaf. -/
theorem Tree.everyLeaf_group_iff {g : Group} {row : Row} {ts : List Tree} (hP : ∀ parent, P parent .mismatch) :
    EveryLeaf P parent (.group g row ts) ↔ ∀ t ∈ g.demands ts, EveryLeaf P (g.encloses parent) t := by
  have hproper : (∀ t ∈ ts, EveryLeaf P (g.encloses parent) t) ↔ ∀ t ∈ proper ts, EveryLeaf P (g.encloses parent) t := by
    constructor
    · exact fun h t ht => h t (mem_proper.mp ht).1
    · intro h t ht
      rcases proper_or_mismatch_of_mem ht with ht | ⟨m, -, rfl⟩
      · exact h t ht
      · exact .check (hP _)
  have hgroup : EveryLeaf P parent (.group g row ts) ↔ ∀ t ∈ ts, EveryLeaf P (g.encloses parent) t := by
    constructor
    · intro h
      cases h with
      | group hts => exact hts
    · exact .group
  rw [hgroup]
  cases g with
  | container p => exact hproper
  | union => exact hproper
  | _ => exact Iff.rfl

end EveryLeaf

/-! ### Groups -/

namespace Group

variable {g : Group} {ts : List Tree}

theorem reread_eq_self_of_documented (h : g.Documented) : g.reread = g := by
  refine Tree.group_reread_eq_self ?_
  cases g with
  | prop name =>
    refine List.forall_mem_singleton.mpr ?_
    rcases h with rfl | ⟨s, rfl⟩ | ⟨i, rfl⟩ | ⟨x, rfl, -⟩ <;> rfl
  | required m => exact List.forall_mem_singleton.mpr (Validator.written_of_isMessage h).1
  | _ => exact List.forall_mem_nil _

theorem demands_reread : g.demands (ts.map Tree.reread) = (g.demands ts).map Tree.reread := by
  cases g with
  | container p => exact Validator.proper_reread ts
  | union => exact Validator.proper_reread ts
  | _ => rfl

theorem mismatches_reread_of_documented (h : ∀ t ∈ ts, t.Documented) :
    Tree.mismatches (ts.map Tree.reread) = Tree.mismatches ts := by
  have hsame : ∀ m ∈ Tree.mismatches ts, written m = id m := by
    intro m hm
    obtain ⟨t, ht, hmismatch⟩ := List.mem_filterMap.mp hm
    cases h t ht with
    | @check c m' hc hm' =>
      cases c with
      | mismatch =>
        obtain rfl := Option.some.inj hmismatch
        exact (Validator.written_of_isMessage hm').1
      | _ => cases hmismatch
    | group => cases hmismatch
  rw [Validator.mismatches_reread, List.map_congr_left hsame, List.map_id]

theorem frame_reread_iff {allowed : List RuleKind} {parent : Option RuleKind} (h : ∀ t ∈ ts, t.Documented) :
    g.Frame allowed parent (ts.map Tree.reread) ↔ g.Frame allowed parent ts := by
  have hmismatches := mismatches_reread_of_documented h
  have hkind : Tree.kind? ∘ Tree.reread = Tree.kind? := funext Tree.kind?_reread
  cases g <;> simp only [Frame, Tree.MismatchOnce, hmismatches, Validator.proper_reread, List.length_map, List.map_map, hkind]

end Group

/-! ### Trees -/

namespace Validator

/-- In a frame that holds, one property of all entries turns into another where it does so in each. -/
theorem frame_iff_of_forall {F : Prop} {ts : List Tree} {X Y A : Tree → Prop} (h : ∀ t ∈ ts, X t → (Y t ↔ A t))
    (hX : F ∧ ∀ t ∈ ts, X t) : (F ∧ ∀ t ∈ ts, Y t) ↔ ∀ t ∈ ts, A t := by
  constructor
  · exact fun h' t ht => (h t ht (hX.2 t ht)).mp (h'.2 t ht)
  · exact fun h' => ⟨hX.1, fun t ht => (h t ht (hX.2 t ht)).mpr (h' t ht)⟩

variable [Text.CharacterNames]

/-- Where one of a tree and its normal form has a validator, the other has one exactly if the bounds of all periods are in
order there, and, before dates are texts, no date is compared with texts. -/
def Relints (t : Tree) : Prop :=
  ∀ {allowed : List RuleKind} {parent : Option RuleKind} {place : Position}, place.Governs allowed parent →
    ((∃ c, ofNode allowed parent t = .ok c) →
      ((∃ c, ofNode allowed parent t.reread = .ok c) ↔ t.EveryLeaf Check.StaysOrdered parent)) ∧
    ((∃ c, ofNode allowed parent t.reread = .ok c) →
      ((∃ c, ofNode allowed parent t = .ok c) ↔ t.EveryLeaf Check.WasOrdered parent))

theorem relints_check {c : Check} {m : Value} (hc : c.Documented) (hm : IsMessage m) : Relints (.check c m) := by
  intro allowed parent place hplace
  rw [Tree.reread, (written_of_isMessage hm).1, builds_check_iff, builds_check_iff, Check.kind?_reread,
    Tree.everyLeaf_check_iff, Tree.everyLeaf_check_iff]
  by_cases hkind : ∃ j ∈ allowed, c.kind? = some j
  · obtain ⟨j, ha, hk⟩ := hkind
    -- Where a leaf is allowed a container is around it, and says what the leaf may hold.
    obtain ⟨p, rfl⟩ := Position.exists_inside (hplace.1 j ha) (RuleKind.not_mem_bindable_of_check hk)
    obtain rfl := hplace.2 p rfl
    have hk' : c.reread.kind? = some j := by rw [Check.kind?_reread, hk]
    rw [ofCheck_isOk_iff hk (hplace.1 j ha), ofCheck_isOk_iff hk' (hplace.1 j ha)]
    rw [Check.isShowable_reread]
    constructor
    · intro h'
      obtain ⟨hkind, ⟨hwf, hshown⟩, -⟩ := h'
      rw [Check.wellFormed_reread_iff hwf]
      exact ⟨fun h => h.2.1.1, fun h => ⟨hkind, ⟨h, hshown⟩, hm⟩⟩
    · intro h'
      obtain ⟨hkind, ⟨hwf, hshown⟩, -⟩ := h'
      rw [Check.wellFormed_iff_of_reread hc hwf]
      exact ⟨fun h => h.2.1.1, fun h => ⟨hkind, ⟨h, hshown⟩, hm⟩⟩
  · exact ⟨fun h => absurd h.1 hkind, fun h => absurd h.1 hkind⟩

theorem relints_group {g : Group} {ts : List Tree} (hg : g.Documented) (hts : ∀ t ∈ ts, t.Documented)
    (ih : ∀ t ∈ ts, Relints t) : Relints (.group g .fixed ts) := by
  intro allowed parent place _
  -- The frame is the same before and after, so the two builds differ in the children only.
  have hreread := comprises_reread (.group g .fixed ts)
  rw [Group.reread_eq_self_of_documented hg] at hreread
  rw [Group.builds_iff (.group g .fixed ts), Group.builds_iff hreread, Group.frame_reread_iff hts, Group.demands_reread,
    List.forall_mem_map, Tree.everyLeaf_group_iff fun _ => trivial, Tree.everyLeaf_group_iff fun _ => trivial]
  have hchild {t : Tree} (ht : t ∈ g.demands ts) : t ∈ ts := by
    cases g with
    | container p => exact (Tree.mem_proper.mp ht).1
    | union => exact (Tree.mem_proper.mp ht).1
    | _ => exact ht
  constructor
  · intro h'
    obtain ⟨place, hplace⟩ := Group.governs_of_frame h'.1
    exact frame_iff_of_forall (fun t ht => (ih t (hchild ht) hplace).1) h'
  · intro h'
    obtain ⟨place, hplace⟩ := Group.governs_of_frame h'.1
    exact frame_iff_of_forall (fun t ht => (ih t (hchild ht) hplace).2) h'

theorem relints {t : Tree} (h : t.Documented) : Relints t := by
  induction h with
  | check hc hm => exact relints_check hc hm
  | group hg hts ih => exact relints_group hg hts ih

end Validator

namespace Document

open Validator (ofTree)

/-- A pattern without an expression is read, and its normal form is not. -/
theorem pattern_normal_form_refused :
    ∃ (d : Value) (t : Tree) (n : Value) (e : SchemaError), d = .ofFields [("kind", .str "pattern")] ∧
      parse d = .ok t ∧ write t = .ok n ∧ parse n = .error (.schema e) := by
  have hparse : parse (.ofFields [("kind", .str "pattern")]) = .ok (.pattern .null) := by
    rw [parse_eq_ok_iff]
    with_unfolding_all rfl
  have hrefused : parse (.ofFields [("kind", .str "pattern"), ("regex", .null)]) =
      .error (.schema ⟨.fieldType .pattern "regex" "a string", []⟩) := by
    rw [parse_of_isWritable rfl]
    with_unfolding_all rfl
  exact ⟨_, _, _, _, rfl, hparse, rfl, hrefused⟩

/-- The normal form of a document is read unless a field was left out that it has a null for, and then there is no validator
anyway. The tree that is read has the same normal form. If the tree of the document has a validator, this tree has one exactly
if the bounds of all periods stay in order; and if this tree has one, the tree of the document has one exactly if the bounds
were in order and no date was compared with texts. -/
theorem normal_form_lints [Text.CharacterNames] {d : Value} {t : Tree} (h : parse d = .ok t) :
    ∃ n, write t = .ok n ∧ ((∃ t', parse n = .ok t') ↔ ¬t.Lacking) ∧ ((∃ c, ofTree t = .ok c) → ¬t.Lacking) ∧
      ∀ t', parse n = .ok t' → write t' = .ok n ∧
        ((∃ c, ofTree t = .ok c) → ((∃ c, ofTree t' = .ok c) ↔ t.EveryLeaf Check.StaysOrdered none)) ∧
        ((∃ c, ofTree t' = .ok c) → ((∃ c, ofTree t = .ok c) ↔ t.EveryLeaf Check.WasOrdered none)) := by
  have hdocumented := documented_of_writes d t (parse_eq_ok_iff_writes.mp h)
  obtain ⟨n, hn, hiff, hreread⟩ := normal_form h
  refine ⟨n, hn, hiff, ?_, fun t' ht' => ?_⟩
  · intro h'
    obtain ⟨c, hc⟩ := h'
    have hplace : Position.value.Governs RuleKind.bindable none := Position.governs_value
    have hwf : t.WellFormed .value := Validator.formed t hc hplace
    obtain ⟨n', hn', hread⟩ := roundTrips_of_wellFormed hwf (everyRow_of_documented hdocumented)
    cases hn.symm.trans hn'
    exact hiff.mp ⟨t.reread, parse_eq_ok_iff.mpr hread⟩
  · obtain rfl := hreread t' ht'
    exact ⟨(write_reread t).trans hn, Validator.relints hdocumented Position.governs_value⟩

open Text.CommonNames

/-- A period whose bounds are dates, and have become texts. -/
theorem normal_form_lints_summer :
    ∃ (d : Value) (t : Tree) (n : Value) (t' : Tree),
      d = .ofFields [("kind", .str "date"), ("rules", .list [.ofFields [("kind", .str "between"),
        ("begin", .date ⟨2024, 7, 1, by decide⟩), ("end", .date ⟨2024, 8, 31, by decide⟩)]])] ∧
      parse d = .ok t ∧ write t = .ok n ∧ parse n = .ok t' ∧ write t' = .ok n ∧ n ≠ d ∧
      (∃ c, ofTree t = .ok c) ∧ ∃ c, ofTree t' = .ok c := by
  let first : CalendarDate := ⟨2024, 7, 1, by decide⟩
  let last : CalendarDate := ⟨2024, 8, 31, by decide⟩
  let t : Tree := .container .date [.between (.date first) (.date last)]
  have hparse : parse (.ofFields [("kind", .str "date"), ("rules", .list [.ofFields [("kind", .str "between"),
      ("begin", .date first), ("end", .date last)]])]) = .ok t := by
    rw [parse_eq_ok_iff]
    with_unfolding_all rfl
  have hprecedes : (Value.date first).Precedes (.date last) :=
    ⟨_, _, Value.stamp?_date first, Value.stamp?_date last, by decide +kernel⟩
  have hc : ∃ c, ofTree t = .ok c := by
    have hperiod : ∃ c, Validator.ofCheck (.between (.date first) (.date last)) .null (some (.container .date)) = .ok c :=
      (Validator.ofCheck_isOk_iff (k := .between) rfl (by decide)).mpr ⟨⟨hprecedes, rfl⟩, .inl rfl⟩
    refine (Validator.builds_container_iff (.group (.container .date) .fixed _)).mpr ⟨⟨by decide, ?_⟩, ?_⟩
    · exact ⟨Nat.zero_le 1, List.forall_mem_nil _⟩
    · exact List.forall_mem_singleton.mpr (Validator.builds_check_iff.mpr ⟨⟨.between, by decide, rfl⟩, hperiod⟩)
  obtain ⟨n, hn, hiff, hlacking, hnormal⟩ := normal_form_lints hparse
  obtain ⟨t', ht'⟩ := hiff.mpr (hlacking hc)
  obtain ⟨hwrite, hlints, -⟩ := hnormal t' ht'
  have hordered : (written (.date first)).Precedes (written (.date last)) := by
    have hfirst : (written (.date first)).stamp? = (Value.date first).stamp? := Value.stamp?_written_iff.mpr trivial
    have hlast : (written (.date last)).stamp? = (Value.date last).stamp? := Value.stamp?_written_iff.mpr trivial
    rwa [Value.Precedes, hfirst, hlast]
  have hleaves : t.EveryLeaf Check.StaysOrdered none := .group (List.forall_mem_singleton.mpr (.check hordered))
  refine ⟨_, t, n, t', rfl, hparse, hn, ht', hwrite, ?_, hc, (hlints hc).mpr hleaves⟩
  cases hn
  exact fun h => by cases h

end Document

end RuleTree
