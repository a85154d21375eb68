import Mathlib.Data.List.Basic
import RuleTree.Document.Writer
import RuleTree.Proofs.Rule.Shape

/-!
# Fields and rows of rule trees

All values that stand in the fields of a tree, what is asked of all rows of children, and the tree that is left when a tree is
written and read again.
-/

namespace RuleTree

/-! ### Fields -/

def Check.fields : Check → List Value
  | .equal v => [v]
  | .bound _ v => [v]
  | .range min max => [min, max]
  | .pattern regex => [regex]
  | .dateBound _ v => [v]
  | .between first last => [first, last]
  | .mismatch => []
  | .kindless _ v => v.toList

def Group.fields : Group → List Value
  | .prop name => [name]
  | .required message => [message]
  | _ => []

namespace Tree

mutual

/-- The values in the fields of a tree, rows of children apart. -/
def fields : Tree → List Value
  | .stray v => [v]
  | .check c m => m :: c.fields
  | .group g _ ts => g.fields ++ fieldsRow ts
  | .unlisted g rules => rules :: g.fields

def fieldsRow : List Tree → List Value
  | [] => []
  | t :: ts => t.fields ++ fieldsRow ts

end

theorem mem_fieldsRow {ts : List Tree} {v : Value} : v ∈ fieldsRow ts ↔ ∃ t ∈ ts, v ∈ t.fields := by
  induction ts with
  | nil => simp [fieldsRow]
  | cons t ts ih => rw [fieldsRow, List.mem_append, ih, List.exists_mem_cons_iff]

/-! ### Rows -/

mutual

/-- Every rule with children has a row of them, of a sort that is asked for. -/
def EveryRow (P : Row → Prop) : Tree → Prop
  | .stray _ => True
  | .check _ _ => True
  | .group _ row ts => P row ∧ EveryRows P ts
  | .unlisted _ _ => False

def EveryRows (P : Row → Prop) : List Tree → Prop
  | [] => True
  | t :: ts => t.EveryRow P ∧ EveryRows P ts

end

theorem everyRows_iff {P : Row → Prop} {ts : List Tree} : EveryRows P ts ↔ ∀ t ∈ ts, t.EveryRow P := by
  induction ts with
  | nil => simp [EveryRows]
  | cons t ts ih => rw [EveryRows, ih, List.forall_mem_cons]

end Tree

/-! ### Trees read again -/

open Document (written)

/-- A leaf with its dates as texts. -/
def Check.reread : Check → Check
  | .equal v => .equal (written v)
  | .bound b v => .bound b (written v)
  | .range min max => .range (written min) (written max)
  | .pattern regex => .pattern (written regex)
  | .dateBound b v => .dateBound b (written v)
  | .between first last => .between (written first) (written last)
  | .mismatch => .mismatch
  | .kindless name v => .kindless name (v.map written)

def Group.reread : Group → Group
  | .prop name => .prop (written name)
  | .required message => .required (written message)
  | g => g

namespace Tree

mutual

/-- A tree with its dates as texts and its rows fixed. -/
def reread : Tree → Tree
  | .stray v => .stray v
  | .check c m => .check c.reread (written m)
  | .group g _ ts => .group g.reread .fixed (rereadRow ts)
  | .unlisted g rules => .unlisted g.reread rules

def rereadRow : List Tree → List Tree
  | [] => []
  | t :: ts => t.reread :: rereadRow ts

end

theorem rereadRow_eq_map (ts : List Tree) : rereadRow ts = ts.map reread := by
  induction ts with
  | nil => rfl
  | cons t ts ih => rw [rereadRow, ih, List.map_cons]

end Tree

theorem Check.kind?_reread (c : Check) : c.reread.kind? = c.kind? := by
  cases c <;> rfl

theorem Group.kind?_reread (g : Group) : g.reread.kind? = g.kind? := by
  cases g <;> rfl

namespace Tree

theorem kind?_reread (t : Tree) : t.reread.kind? = t.kind? := by
  cases t with
  | stray v => rfl
  | check c m => exact c.kind?_reread
  | group g row ts => exact g.kind?_reread
  | unlisted g rules => exact g.kind?_reread

/-! ### Trees that are left as they are -/

theorem written_eq_self {v : Value} (hd : ∀ d, v ≠ .date d) (hm : ∀ m, v ≠ .moment m) : written v = v := by
  cases v with
  | date d => exact absurd rfl (hd d)
  | moment m => exact absurd rfl (hm m)
  | _ => rfl

theorem check_reread_eq_self {c : Check} (h : ∀ v ∈ c.fields, written v = v) : c.reread = c := by
  cases c with
  | equal v => exact congrArg Check.equal (h v List.mem_cons_self)
  | bound b v => exact congrArg (Check.bound b) (h v List.mem_cons_self)
  | range min max =>
    have hmin := h min (by simp [Check.fields])
    have hmax := h max (by simp [Check.fields])
    rw [Check.reread, hmin, hmax]
  | pattern regex => exact congrArg Check.pattern (h regex List.mem_cons_self)
  | dateBound b v => exact congrArg (Check.dateBound b) (h v List.mem_cons_self)
  | between first last =>
    have hfirst := h first (by simp [Check.fields])
    have hlast := h last (by simp [Check.fields])
    rw [Check.reread, hfirst, hlast]
  | mismatch => rfl
  | kindless name v =>
    cases v with
    | none => rfl
    | some v => exact congrArg (fun w => Check.kindless name (some w)) (h v (by simp [Check.fields]))

theorem group_reread_eq_self {g : Group} (h : ∀ v ∈ g.fields, written v = v) : g.reread = g := by
  cases g with
  | prop name => exact congrArg Group.prop (h name List.mem_cons_self)
  | required message => exact congrArg Group.required (h message List.mem_cons_self)
  | _ => rfl

theorem reread_eq_self (t : Tree) (hrows : t.EveryRow (· = .fixed)) (h : ∀ v ∈ t.fields, written v = v) :
    t.reread = t := by
  induction t using Tree.induct with
  | stray v => rfl
  | check c m =>
    have hm : written m = m := h m List.mem_cons_self
    have hc : c.reread = c := check_reread_eq_self fun v hv => h v (List.mem_cons_of_mem _ hv)
    rw [reread, hm, hc]
  | unlisted g rules => exact hrows.elim
  | group g row ts ih =>
    obtain ⟨hrow, hts⟩ := hrows
    have hg : g.reread = g := group_reread_eq_self fun v hv => h v (List.mem_append_left _ hv)
    have hchildren : ts.map reread = ts := by
      have hsame : ∀ s ∈ ts, s.reread = id s := by
        intro s hs
        refine ih s hs (everyRows_iff.mp hts s hs) fun v hv => h v ?_
        exact List.mem_append_right _ (mem_fieldsRow.mpr ⟨s, hs, hv⟩)
      rw [List.map_congr_left hsame, List.map_id]
    rw [reread, hg, rereadRow_eq_map, hchildren, hrow]

end Tree

end RuleTree
