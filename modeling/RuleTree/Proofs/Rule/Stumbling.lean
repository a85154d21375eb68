import RuleTree.Proofs.Number.Decimal
import RuleTree.Proofs.Rule.Meaning
import RuleTree.Proofs.Rule.Writable

/-!
# Where a tree stumbles

A run that fails a bound tells its limit, and one that fails inside a property tells its name. Where these have no text, the
run neither accepts nor rejects. On which values it comes to this is again a property of values by recursion on the tree: of
rules that are looked at in turn, one stumbles, and those before it hold, or, among alternatives, do not hold.
-/

namespace RuleTree

/-- One of a row has a property, and all before it have another one. -/
def Reaches {α : Type} (passed reached : α → Prop) : List α → Prop
  | [] => False
  | x :: xs => reached x ∨ passed x ∧ Reaches passed reached xs

theorem exists_of_reaches {α : Type} {passed reached : α → Prop} {xs : List α} (h : Reaches passed reached xs) :
    ∃ x ∈ xs, reached x := by
  induction xs with
  | nil => exact h.elim
  | cons x xs ih =>
    rcases h with h | ⟨-, h⟩
    · exact ⟨x, List.mem_cons_self, h⟩
    · obtain ⟨y, hy, hreached⟩ := ih h
      exact ⟨y, List.mem_cons_of_mem _ hy, hreached⟩

section Reaches

variable {α : Type} {passed reached held : α → Prop} {xs : List α}

theorem reaches_of_mem {x : α} (hx : x ∈ xs) (hpassed : ∀ y ∈ xs, passed y) (h : reached x) : Reaches passed reached xs := by
  induction xs with
  | nil => cases hx
  | cons y ys ih =>
    obtain ⟨hy, hys⟩ := List.forall_mem_cons.mp hpassed
    rcases List.mem_cons.mp hx with rfl | hx
    · exact .inl h
    · exact .inr ⟨hy, ih hx hys⟩

theorem forall_or_reaches (h : ∀ x ∈ xs, passed x ∨ reached x) : (∀ x ∈ xs, passed x) ∨ Reaches passed reached xs := by
  induction xs with
  | nil => exact .inl (List.forall_mem_nil _)
  | cons x xs ih =>
    obtain ⟨hx, hxs⟩ := List.forall_mem_cons.mp h
    rcases hx with hx | hx
    · exact (ih hxs).imp (fun h => List.forall_mem_cons.mpr ⟨hx, h⟩) fun h => .inr ⟨hx, h⟩
    · exact .inr (.inl hx)

/-- The first that holds is none that is reached, if none is reached before one holds. -/
theorem exists_not_of_not_reaches (h : ∃ x ∈ xs, held x) (hstop : ¬Reaches (fun x => ¬held x) reached xs) :
    ∃ x ∈ xs, held x ∧ ¬reached x := by
  induction xs with
  | nil =>
    obtain ⟨x, hx, -⟩ := h
    cases hx
  | cons x xs ih =>
    by_cases hx : held x
    · exact ⟨x, List.mem_cons_self, hx, fun hreached => hstop (.inl hreached)⟩
    · obtain ⟨z, hz, hheld⟩ := h
      rcases List.mem_cons.mp hz with rfl | hz
      · exact absurd hheld hx
      · obtain ⟨y, hy, hfound⟩ := ih ⟨z, hz, hheld⟩ fun hreaches => hstop (.inr ⟨hx, hreaches⟩)
        exact ⟨y, List.mem_cons_of_mem _ hy, hfound⟩

end Reaches

/-- What it takes for a group to stumble, given what it means that all of its rules hold, and that they stumble in turn as
rules that must all hold, or as alternatives. -/
def Group.Stumbles (g : Group) (all each one : Value → Prop) (v : Value) : Prop :=
  match g with
  | .any => one v
  | .union => v ≠ .null ∧ one v
  | .container p => ∃ seen, p.Admits v seen ∧ each seen
  | .prop name =>
    ∃ key es, name = key.toValue ∧ v = .map es ∧
      (each (Value.property key es) ∨ key.isWritable = false ∧ ¬all (Value.property key es))
  | .item => ∃ items, v.items? = some items ∧ Reaches all each items
  | .required _ => v ≠ .null ∧ each v
  | .kindless _ => False

namespace Tree

variable [Text.CharacterNames]

mutual

def Stumbles : Tree → Value → Prop
  | .stray _, _ => False
  | .check c _, v => c.isTellable = false ∧ ¬c.Holds v
  | .group g _ rules, v =>
    g.Stumbles (fun w => AllHold rules w) (fun w => AllStumble rules w) (fun w => OneStumbles rules w) v
  | .unlisted g _, v => g.Stumbles (fun _ => True) (fun _ => False) (fun _ => False) v

def AllStumble : List Tree → Value → Prop
  | [], _ => False
  | t :: ts, v => t.Stumbles v ∨ (t.isMismatch = true ∨ t.Holds v) ∧ AllStumble ts v

def OneStumbles : List Tree → Value → Prop
  | [], _ => False
  | t :: ts, v => t.Stumbles v ∨ ¬(t.isMismatch = false ∧ t.Holds v) ∧ OneStumbles ts v

end

theorem not_stumbles_mismatch (m v : Value) : ¬(Tree.check .mismatch m).Stumbles v := by
  rw [Stumbles]
  rintro ⟨h, -⟩
  cases h

theorem allStumble_iff {ts : List Tree} {v : Value} :
    AllStumble ts v ↔ Reaches (fun s : Tree => s.Holds v) (fun s => s.Stumbles v) (proper ts) := by
  induction ts with
  | nil => simp [AllStumble, proper, Reaches]
  | cons t ts ih =>
    rw [AllStumble, ih]
    cases hm : t.isMismatch with
    | true =>
      obtain ⟨m, rfl⟩ := eq_mismatch_of_isMismatch hm
      simp [proper_mismatch, not_stumbles_mismatch]
    | false => simp [proper_cons hm, Reaches]

theorem oneStumbles_iff {ts : List Tree} {v : Value} :
    OneStumbles ts v ↔ Reaches (fun s : Tree => ¬s.Holds v) (fun s => s.Stumbles v) (proper ts) := by
  induction ts with
  | nil => simp [OneStumbles, proper, Reaches]
  | cons t ts ih =>
    rw [OneStumbles, ih]
    cases hm : t.isMismatch with
    | true =>
      obtain ⟨m, rfl⟩ := eq_mismatch_of_isMismatch hm
      simp [proper_mismatch, not_stumbles_mismatch]
    | false => simp [proper_cons hm, Reaches]

section Groups

variable {t : Tree} {g : Group} {ts : List Tree} {v : Value}

theorem stumbles_of_comprises (h : t.Comprises g ts) : t.Stumbles v ↔
    g.Stumbles (fun w => ∀ s ∈ proper ts, s.Holds w)
      (fun w => Reaches (fun s : Tree => s.Holds w) (fun s => s.Stumbles w) (proper ts))
      (fun w => Reaches (fun s : Tree => ¬s.Holds w) (fun s => s.Stumbles w) (proper ts)) v := by
  cases h with
  | group row =>
    rw [Stumbles]
    simp only [allHold_iff, allStumble_iff, oneStumbles_iff]
  | unlisted =>
    rw [Stumbles]
    simp [proper, Reaches]

/-- Of a group that can be told, a rule inside stumbles if the group does. -/
theorem exists_stumbles_of_group (hg : g.isTellable = true) (h : t.Comprises g ts) (hv : t.Stumbles v) :
    ∃ s ∈ ts, ∃ w, s.Stumbles w := by
  have hinside {H : Tree → Prop} {w : Value} (h : Reaches H (fun s => s.Stumbles w) (proper ts)) : ∃ s ∈ ts, ∃ w, s.Stumbles w := by
    obtain ⟨s, hs, hw⟩ := exists_of_reaches h
    exact ⟨s, (mem_proper.mp hs).1, w, hw⟩
  rw [stumbles_of_comprises h] at hv
  cases g with
  | any => exact hinside hv
  | union => exact hinside hv.2
  | container p =>
    obtain ⟨seen, -, hv⟩ := hv
    exact hinside hv
  | prop name =>
    obtain ⟨key, es, rfl, -, hv | ⟨hkey, -⟩⟩ := hv
    · exact hinside hv
    · have hwritable : key.isWritable = true := by
        cases key with
        | text s => rfl
        | index i => exact hg
      cases hkey.symm.trans hwritable
  | item =>
    obtain ⟨items, -, hv⟩ := hv
    obtain ⟨w, -, hw⟩ := exists_of_reaches hv
    exact hinside hw
  | required m => exact hinside hv.2
  | kindless name => exact hv.elim

end Groups

/-- A tree whose limits and names all have texts never stumbles. -/
theorem not_stumbles_of_isTellable {t : Tree} (h : t.isTellable = true) (v : Value) : ¬t.Stumbles v := by
  induction t using Tree.induct generalizing v with
  | stray w => exact fun hv => hv
  | check c m =>
    rintro ⟨hc, -⟩
    cases hc.symm.trans h
  | unlisted g rules =>
    have hnull : (Tree.unlisted g .null).Comprises g [] := .unlisted g
    intro hv
    obtain ⟨s, hs, -⟩ := exists_stumbles_of_group ((isTellable_of_comprises hnull).mp h).1 hnull hv
    cases hs
  | group g row ts ih =>
    have hrow : (Tree.group g row ts).Comprises g ts := .group g row ts
    obtain ⟨hg, hts⟩ := (isTellable_of_comprises hrow).mp h
    intro hv
    obtain ⟨s, hs, w, hw⟩ := exists_stumbles_of_group hg hrow hv
    exact ih s hs (hts s hs) w hw

/-- A measure that falls short of a limit without a text. -/
theorem stumbles_of_measure? {v m : Value} {i : Int} (hv : v.measure? = some (.finite i)) (hi : Decimal.isWritable i = true) :
    (Tree.check (.bound .min (.number (.int Decimal.leastUnwritable))) m).Stumbles v := by
  refine ⟨Decimal.isWritable_leastUnwritable, ?_⟩
  rintro ⟨x, y, hx, hy, hle⟩
  cases hv.symm.trans hx
  cases hy
  have hlt : (i : Rat) < (Decimal.leastUnwritable : Rat) := by exact_mod_cast Decimal.lt_leastUnwritable hi
  have hless : ExtendedRat.finite i < .finite Decimal.leastUnwritable :=
    (ExtendedRat.lt_iff _ _).mp (decide_eq_true hlt)
  exact absurd hle (not_le.mpr hless)

end Tree

end RuleTree
