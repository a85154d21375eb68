import RuleTree.Proofs.Rule.Shape

/-!
# What a tree puts into words

Integers of more than 4300 digits have no text. The builder shows the expected values of `equal` rules, and a run that fails
tells the limits of bounds and ranges and the names of properties. What can be shown and told is asked of the whole tree.
-/

namespace RuleTree

/-- Whether the builder can show a leaf. -/
def Check.isShowable : Check → Bool
  | .equal v => v.isWritable
  | _ => true

/-- Whether a run can tell that a value fails a leaf. -/
def Check.isTellable : Check → Bool
  | .bound _ limit => limit.isWritable
  | .range min max => min.isWritable && max.isWritable
  | _ => true

/-- Whether a run can tell the way through a group. -/
def Group.isTellable : Group → Bool
  | .prop name => name.isWritable
  | _ => true

namespace Tree

mutual

/-- Whether all leaves and all groups of a tree pass a test. -/
def all (leaf : Check → Bool) (group : Group → Bool) : Tree → Bool
  | .stray _ => true
  | .check c _ => leaf c
  | .group g _ ts => group g && rowAll leaf group ts
  | .unlisted g _ => group g

def rowAll (leaf : Check → Bool) (group : Group → Bool) : List Tree → Bool
  | [] => true
  | t :: ts => t.all leaf group && rowAll leaf group ts

end

def isShowable (t : Tree) : Bool := t.all Check.isShowable fun _ => true

def isTellable (t : Tree) : Bool := t.all Check.isTellable Group.isTellable

section All

variable {leaf : Check → Bool} {group : Group → Bool} {g : Group} {t : Tree} {ts : List Tree}

theorem rowAll_iff : rowAll leaf group ts = true ↔ ∀ t ∈ ts, t.all leaf group = true := by
  induction ts with
  | nil => simp [rowAll]
  | cons t ts ih => rw [rowAll, List.forall_mem_cons, Bool.and_eq_true, ih]

theorem all_of_comprises (h : t.Comprises g ts) :
    t.all leaf group = true ↔ group g = true ∧ ∀ s ∈ ts, s.all leaf group = true := by
  cases h with
  | group row => rw [all, Bool.and_eq_true, rowAll_iff]
  | unlisted => simp [all]

theorem isShowable_of_comprises (h : t.Comprises g ts) : t.isShowable = true ↔ ∀ s ∈ ts, s.isShowable = true := by
  rw [isShowable, all_of_comprises h]
  exact and_iff_right rfl

theorem isTellable_of_comprises (h : t.Comprises g ts) :
    t.isTellable = true ↔ g.isTellable = true ∧ ∀ s ∈ ts, s.isTellable = true :=
  all_of_comprises h

end All

end Tree

end RuleTree
