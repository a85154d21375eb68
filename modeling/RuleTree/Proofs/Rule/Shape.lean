import RuleTree.Rule.Tree

/-!
# The shape of rule trees

Induction over trees, the group and the children of a rule however they are written, and the mismatch rules among the
children of a group.
-/

namespace RuleTree.Tree

/-- Induction over rule trees: a property that passes from the children of a group to the group holds of every tree. -/
@[elab_as_elim]
theorem induct {motive : Tree → Prop} (stray : ∀ v, motive (.stray v)) (check : ∀ c m, motive (.check c m))
    (unlisted : ∀ g rules, motive (.unlisted g rules))
    (group : ∀ g row ts, (∀ t ∈ ts, motive t) → motive (.group g row ts)) (t : Tree) : motive t := by
  refine @Tree.rec motive (fun ts => ∀ t ∈ ts, motive t) stray check group unlisted ?_ ?_ t
  · intro s hs
    cases hs
  · intro s ts hs hts u hu
    rcases List.mem_cons.mp hu with rfl | hu
    · exact hs
    · exact hts u hu

/-! ### Groups -/

/-- What a rule with children is made of. A `rules` field that is null stands for no children. -/
inductive Comprises : Tree → Group → List Tree → Prop
  | group (g : Group) (row : Row) (ts : List Tree) : Comprises (.group g row ts) g ts
  | unlisted (g : Group) : Comprises (.unlisted g .null) g []

theorem Comprises.kind? {t : Tree} {g : Group} {ts : List Tree} (h : t.Comprises g ts) : t.kind? = g.kind? := by
  cases h with
  | group row => rfl
  | unlisted => rfl

theorem Comprises.unique {t : Tree} {g h : Group} {ts us : List Tree} (hg : t.Comprises g ts) (hh : t.Comprises h us) :
    g = h ∧ ts = us := by
  cases hg with
  | group row =>
    cases hh
    exact ⟨rfl, rfl⟩
  | unlisted =>
    cases hh
    exact ⟨rfl, rfl⟩

/-! ### Mismatch rules -/

def mismatch? : Tree → Option Value
  | .check .mismatch m => some m
  | _ => none

def isMismatch (t : Tree) : Bool := t.mismatch?.isSome

/-- The message fields of the mismatch rules in a row. -/
def mismatches (ts : List Tree) : List Value := ts.filterMap mismatch?

/-- The rules of a row that demand something themselves. -/
def proper (ts : List Tree) : List Tree := ts.filter fun t => !t.isMismatch

theorem eq_mismatch_of_isMismatch {t : Tree} (h : t.isMismatch = true) : ∃ m, t = .check .mismatch m := by
  unfold isMismatch mismatch? at h
  split at h
  · next m => exact ⟨m, rfl⟩
  · simp at h

theorem isMismatch_eq_false_iff {t : Tree} : t.isMismatch = false ↔ t.mismatch? = none := by
  simp [isMismatch]

theorem isMismatch_eq_false_of_kind? {t : Tree} {k : RuleKind} (h : t.kind? = some k) (hk : k ≠ .mismatch) :
    t.isMismatch = false := by
  rw [Bool.eq_false_iff]
  intro hm
  obtain ⟨m, rfl⟩ := eq_mismatch_of_isMismatch hm
  exact hk (Option.some.inj h).symm

theorem isMismatch_of_kind? {t : Tree} (h : t.kind? = some .mismatch) : t.isMismatch = true := by
  cases t with
  | stray v => cases h
  | check c m =>
    cases c with
    | mismatch => rfl
    | _ => cases h
  | group g row ts => cases g <;> cases h
  | unlisted g rules => cases g <;> cases h

theorem mem_proper {t : Tree} {ts : List Tree} : t ∈ proper ts ↔ t ∈ ts ∧ t.isMismatch = false := by
  simp [proper]

theorem proper_or_mismatch_of_mem {t : Tree} {ts : List Tree} (h : t ∈ ts) :
    t ∈ proper ts ∨ ∃ m ∈ mismatches ts, t = .check .mismatch m := by
  cases hm : t.isMismatch with
  | true =>
    obtain ⟨m, rfl⟩ := eq_mismatch_of_isMismatch hm
    exact .inr ⟨m, List.mem_filterMap.mpr ⟨_, h, rfl⟩, rfl⟩
  | false => exact .inl (mem_proper.mpr ⟨h, hm⟩)

theorem proper_mismatch (m : Value) (ts : List Tree) : proper (.check .mismatch m :: ts) = proper ts := rfl

theorem mismatches_mismatch (m : Value) (ts : List Tree) :
    mismatches (.check .mismatch m :: ts) = m :: mismatches ts := rfl

theorem proper_cons {t : Tree} (h : t.isMismatch = false) (ts : List Tree) : proper (t :: ts) = t :: proper ts := by
  simp [proper, h]

theorem mismatches_cons {t : Tree} (h : t.isMismatch = false) (ts : List Tree) :
    mismatches (t :: ts) = mismatches ts := by
  simp [mismatches, isMismatch_eq_false_iff.mp h]

theorem proper_eq_self {ts : List Tree} (h : mismatches ts = []) : proper ts = ts := by
  rw [proper, List.filter_eq_self]
  intro t ht
  rw [mismatches, List.filterMap_eq_nil_iff] at h
  simp [isMismatch, h t ht]

end RuleTree.Tree
