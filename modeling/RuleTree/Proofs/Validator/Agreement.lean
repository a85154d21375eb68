import Mathlib.Data.List.Forall2
import RuleTree.Proofs.Validator.Accepts

/-!
# Validators that decide alike

Two validators decide alike if they accept the same values and point to the same place in the values that they reject; the
words of a rejection are free. What a rejection tells is put into words even where it is then replaced by other ones, so that
both runs stop at the same integer without a text. Every sort of validator keeps this relation between its parts, so a change
of words deep inside a validator is never seen outside.
-/

namespace RuleTree.Validator

/-! ### Verdicts -/

/-- Both accept, both reject at the same place, or both stop at an integer without a text. -/
inductive Alike : Verdict → Verdict → Prop
  | ok : Alike (.ok ()) (.ok ())
  | error {e f : ValidationError} (path : e.path = f.path) : Alike (.error (.invalid e)) (.error (.invalid f))
  | unwritable : Alike (.error .unwritable) (.error .unwritable)

section Verdicts

variable {r s : Verdict} {rs ss : List Verdict}

theorem alike_demand (holds : Bool) (m n : Option String) (cause : Cause) :
    Alike (demand holds m cause) (demand holds n cause) := by
  unfold demand
  split
  · exact .ok
  · split
    · exact .error rfl
    · exact .unwritable

/-- What decides among several verdicts does so on both sides. -/
theorem alike_firstOr {cause cause' : Cause} (h : List.Forall₂ Alike rs ss) :
    Alike (Verdict.firstOr (rejectFor cause) rs) (Verdict.firstOr (rejectFor cause') ss) := by
  unfold Verdict.firstOr
  induction h with
  | nil => exact .error rfl
  | cons hrs _ ih =>
    cases hrs with
    | ok => exact .ok
    | error path => exact ih
    | unwritable => exact .unwritable

/-- Only a single rejection is passed on with its path; none and several are reported from the union itself. -/
theorem alike_decideUnion (kinds : List Primitive) (m n : Option String) (v : Value) (h : List.Forall₂ Alike rs ss) :
    Alike (decideUnion kinds m v rs) (decideUnion kinds n v ss) := by
  cases h with
  | nil => exact .error rfl
  | cons hrs hrest =>
    cases hrest with
    | nil => exact hrs
    | cons hrs' hrest => exact alike_firstOr (.cons hrs (.cons hrs' hrest))

/-- The way that is told is the same on both sides. -/
theorem alike_locatedAt {e f : RunError} (l : Location) (h : Alike (.error e) (.error f)) :
    Alike (.error (e.locatedAt l)) (.error (f.locatedAt l)) := by
  cases h with
  | error path =>
    unfold RunError.locatedAt
    cases l.isWritable with
    | true => exact .error (congrArg (List.cons l) path)
    | false => exact .unwritable
  | unwritable => exact .unwritable

theorem alike_eachItem {f g : Value → Verdict} (h : ∀ w, Alike (f w) (g w)) (i : Nat) (vs : List Value) :
    Alike (eachItem f i vs) (eachItem g i vs) := by
  induction vs generalizing i with
  | nil => exact .ok
  | cons w vs ih =>
    have hw := h w
    rw [eachItem, eachItem]
    generalize f w = r at hw ⊢
    generalize g w = s at hw ⊢
    cases hw with
    | ok => exact ih (i + 1)
    | error path => exact alike_locatedAt _ (.error path)
    | unwritable => exact .unwritable

end Verdicts

/-! ### Validators -/

def DecidesAlike (c d : Validator) : Prop := ∀ v, Alike (c.run v) (d.run v)

section Rows

variable {cs ds : List Validator} {bs es : List (Primitive × Validator)}

theorem DecidesAlike.runAll (h : List.Forall₂ DecidesAlike cs ds) (v : Value) : Alike (runAll cs v) (runAll ds v) := by
  induction h with
  | nil =>
    rw [runAll_nil]
    exact .ok
  | @cons c d cs ds hcd _ ih =>
    have hv := hcd v
    rw [Validator.runAll, Validator.runAll]
    generalize c.run v = r at hv ⊢
    generalize d.run v = s at hv ⊢
    cases hv with
    | ok => exact ih
    | error path => exact .error path
    | unwritable => exact .unwritable

/-- Both rows stop at the same alternative, the first that does not reject. -/
theorem DecidesAlike.runAlternatives (h : List.Forall₂ DecidesAlike cs ds) (v : Value) :
    List.Forall₂ Alike (runAlternatives cs v) (runAlternatives ds v) := by
  induction h with
  | nil =>
    rw [runAlternatives_nil]
    exact .nil
  | @cons c d cs ds hcd _ ih =>
    have hv := hcd v
    rw [Validator.runAlternatives, Validator.runAlternatives]
    generalize c.run v = r at hv ⊢
    generalize d.run v = s at hv ⊢
    cases hv with
    | ok => exact .cons .ok .nil
    | error path => exact .cons (.error path) ih
    | unwritable => exact .cons .unwritable .nil

/-- Branches of the same kind that decide alike. -/
def BranchAlike (b e : Primitive × Validator) : Prop := b.1 = e.1 ∧ DecidesAlike b.2 e.2

theorem kinds_of_forall₂_branchAlike (h : List.Forall₂ BranchAlike bs es) : bs.map Prod.fst = es.map Prod.fst := by
  induction h with
  | nil => rfl
  | cons hbe _ ih => rw [List.map_cons, List.map_cons, hbe.1, ih]

theorem DecidesAlike.runBranches (h : List.Forall₂ BranchAlike bs es) (v : Value) :
    List.Forall₂ Alike (runBranches bs v) (runBranches es v) := by
  induction h with
  | nil =>
    rw [runBranches_nil]
    exact .nil
  | @cons b e bs es hbe _ ih =>
    obtain ⟨hkind, hagree⟩ := hbe
    rw [Validator.runBranches, Validator.runBranches, ← hkind]
    by_cases ho : offers v b.1 = true
    · rw [if_pos ho, if_pos ho]
      have hv := hagree v
      generalize b.2.run v = r at hv ⊢
      generalize e.2.run v = s at hv ⊢
      cases hv with
      | ok => exact .cons .ok .nil
      | error path => exact .cons (.error path) ih
      | unwritable => exact .cons .unwritable .nil
    · rw [if_neg ho, if_neg ho]
      exact ih

end Rows

section Sorts

variable {cs ds : List Validator} {c d : Validator}

theorem DecidesAlike.any (h : List.Forall₂ DecidesAlike cs ds) : DecidesAlike (.any cs) (.any ds) := by
  intro v
  rw [run, run]
  exact alike_firstOr (DecidesAlike.runAlternatives h v)

theorem DecidesAlike.container (p : Primitive) (m n : Option String) (h : List.Forall₂ DecidesAlike cs ds) :
    DecidesAlike (.container p cs m) (.container p ds n) := by
  intro v
  by_cases hv : v = .null
  · subst hv
    rw [run_container_null, run_container_null]
    exact .ok
  · rw [run_container hv, run_container hv]
    cases receive p v with
    | error cause => exact .error rfl
    | ok seen => exact DecidesAlike.runAll h seen

theorem DecidesAlike.union {bs es : List (Primitive × Validator)} (m n : Option String)
    (h : List.Forall₂ BranchAlike bs es) : DecidesAlike (.union bs m) (.union es n) := by
  intro v
  by_cases hv : v = .null
  · subst hv
    rw [run_union_null, run_union_null]
    exact .ok
  · rw [run_union hv, run_union hv, kinds_of_forall₂_branchAlike h]
    exact alike_decideUnion _ m n v (DecidesAlike.runBranches h v)

theorem DecidesAlike.prop (key : Key) (h : DecidesAlike c d) : DecidesAlike (.prop key c) (.prop key d) := by
  intro v
  cases v with
  | map es =>
    have hv := h (Value.property key es)
    rw [run, run]
    generalize c.run (Value.property key es) = r at hv ⊢
    generalize d.run (Value.property key es) = s at hv ⊢
    cases hv with
    | ok => exact .ok
    | error path => exact alike_locatedAt _ (.error path)
    | unwritable => exact .unwritable
  | _ => exact .ok

theorem DecidesAlike.item (h : DecidesAlike c d) : DecidesAlike (.item c) (.item d) := by
  intro v
  rw [run, run]
  cases v.items? with
  | none => exact .ok
  | some items => exact alike_eachItem h 0 items

theorem DecidesAlike.required_none (m n : Option String) : DecidesAlike (.required none m) (.required none n) := by
  intro v
  cases v with
  | null => exact .error rfl
  | _ => exact .ok

theorem DecidesAlike.required_some (m n : Option String) (h : DecidesAlike c d) :
    DecidesAlike (.required (some c) m) (.required (some d) n) := by
  intro v
  by_cases hv : v = .null
  · subst hv
    exact .error rfl
  · rw [run_required_some hv, run_required_some hv]
    exact h v

end Sorts

end RuleTree.Validator
