import RuleTree.Proofs.Build.Frame
import RuleTree.Proofs.Validator.Meaning

/-!
# Verdicts of single checks

A container with one check in it is the smallest rule in which a check can be met on its own. Its verdict on a value that the
container takes is whether the check holds of what the container shows to it, unless it fails and its limit cannot be told.
-/

namespace RuleTree

open Validator

/-- What a run decides: a value is accepted or rejected, or the run ends without a decision. -/
def Verdict.decision : Verdict → Option Bool
  | .ok _ => some true
  | .error (.invalid _) => some false
  | .error .unwritable => none

/-- What the validator of a tree decides on a value; nothing if the tree has no validator. -/
def Tree.verdict [Text.CharacterNames] (t : Tree) (v : Value) : Option Bool :=
  (ofTree t).toOption.bind fun c => (c.run v).decision

namespace Check

/-- A check that stands alone in a container, without words of its own. -/
def alone (c : Check) (p : Primitive) : Tree := .container p [.check c .null]

/-- What a check that stands alone in a container decides on a value. -/
def verdict [Text.CharacterNames] (c : Check) (p : Primitive) (v : Value) : Option Bool := (c.alone p).verdict v

end Check

namespace Validator

theorem receive_of_admits {p : Primitive} {v seen : Value} (h : p.Admits v seen) : receive p v = .ok seen := by
  cases h with
  | number n q hq =>
    have hf : n.isFinite = true := Number.isFinite_iff.mpr ⟨q, hq⟩
    rw [receive_of_kind rfl]
    simp [Value.isFiniteNumber, hf]
  | written s m hm => exact (receive_of_kind_ne (by simp [Value.kind])).mpr ⟨rfl, s, m, rfl, hm, rfl⟩
  | _ => rfl

theorem accepts_of_decision {c : Validator} {v : Value} {b : Bool} (h : (c.run v).decision = some b) : c.accepts v = b := by
  rw [accepts]
  cases hrun : c.run v with
  | ok u =>
    rw [hrun] at h
    exact Option.some.inj h
  | error e =>
    rw [hrun] at h
    cases e with
    | invalid e => exact Option.some.inj h
    | unwritable => cases h

theorem runAll_singleton (c : Validator) (v : Value) : runAll [c] v = c.run v := by
  rw [runAll]
  cases c.run v with
  | ok u => rw [runAll_nil]
  | error e => rfl

theorem decision_of_says {r : Verdict} {b told : Bool} {holds : Prop} (hb : holds ↔ b = true)
    (h : Says r holds (told = false ∧ ¬holds)) : r.decision = if b || told then some b else none := by
  cases r with
  | ok u =>
    have hb : b = true := hb.mp h.1
    simp [Verdict.decision, hb]
  | error e =>
    cases e with
    | invalid e =>
      have hb : b = false := Bool.eq_false_iff.mpr fun hb' => h.1 (hb.mpr hb')
      have htold : told = true := by
        by_contra hne
        exact h.2 ⟨Bool.eq_false_iff.mpr hne, h.1⟩
      simp [Verdict.decision, hb, htold]
    | unwritable =>
      have hb : b = false := Bool.eq_false_iff.mpr fun hb' => h.2 (hb.mpr hb')
      simp [Verdict.decision, hb, h.1]

section Alone

variable [Text.CharacterNames]

variable {c : Check} {k : RuleKind} {p : Primitive} {d : Validator}

theorem ofTree_alone_eq_ok_iff (hk : c.kind? = some k) (hp : k ∈ RuleKind.checksOf p) (hm : k ≠ .mismatch) :
    ofTree (c.alone p) = .ok d ↔
      ∃ check, ofCheck c .null (some (.container p)) = .ok check ∧ d = .container p [check] none := by
  have hproper : Tree.isMismatch (.check c .null) = false := Tree.isMismatch_eq_false_of_kind? hk hm
  have hcontainer : RuleKind.container p ∈ RuleKind.bindable := RuleKind.mem_bindable.mpr (.inr (.inr ⟨p, rfl⟩))
  have hchild : ∃ j ∈ RuleKind.childrenOf p, c.kind? = some j := ⟨k, List.mem_cons_of_mem _ hp, hk⟩
  rw [ofTree, Check.alone, Tree.container, ofNode_container_eq_ok_iff (.group _ _ _), Tree.proper_cons hproper,
    Tree.mismatches_cons hproper]
  simp only [hcontainer, true_and, Tree.proper, List.filter_nil, Tree.mismatches, List.filterMap_nil, MismatchBuilds,
    List.forall₂_cons_left_iff, List.forall₂_nil_left_iff, ofNode_check_eq_ok_iff, hchild]
  constructor
  · rintro ⟨_, _, ⟨check, _, hcheck, rfl, rfl⟩, rfl, rfl⟩
    exact ⟨check, hcheck, rfl⟩
  · rintro ⟨check, hcheck, rfl⟩
    exact ⟨[check], none, ⟨check, [], hcheck, rfl, rfl⟩, rfl, rfl⟩

theorem exists_ofTree_alone_iff (hk : c.kind? = some k) (hp : k ∈ RuleKind.checksOf p) (hm : k ≠ .mismatch) :
    (∃ d, ofTree (c.alone p) = .ok d) ↔ c.WellFormed p ∧ c.isShowable = true := by
  have hcheck := ofCheck_isOk_iff (m := .null) hk (List.mem_cons_of_mem _ hp)
  simp only [ofTree_alone_eq_ok_iff hk hp hm]
  constructor
  · rintro ⟨_, check, h, -⟩
    exact (hcheck.mp ⟨check, h⟩).1
  · intro h
    obtain ⟨check, h⟩ := hcheck.mpr ⟨h, .inl rfl⟩
    exact ⟨_, check, h, rfl⟩

theorem verdict_eq_none {v : Value} (h : ¬∃ d, ofTree (c.alone p) = .ok d) : c.verdict p v = none := by
  rw [Check.verdict, Tree.verdict]
  cases ht : ofTree (c.alone p) with
  | error f => rfl
  | ok d => exact absurd ⟨d, ht⟩ h

/-- Alone in a container, a check that is built decides by what the container makes of the value. It tells no rejection that it
cannot write. -/
theorem verdict_of_admits {v seen : Value} {b : Bool} (hk : c.kind? = some k) (hp : k ∈ RuleKind.checksOf p)
    (hm : k ≠ .mismatch) (hc : c.WellFormed p) (hs : c.isShowable = true) (hv : p.Admits v seen)
    (hb : c.Holds seen ↔ b = true) : c.verdict p v = if b || c.isTellable then some b else none := by
  obtain ⟨d, hd⟩ := (exists_ofTree_alone_iff hk hp hm).mpr ⟨hc, hs⟩
  obtain ⟨check, hcheck, rfl⟩ := (ofTree_alone_eq_ok_iff hk hp hm).mp hd
  have hnull : v ≠ .null := by
    rintro rfl
    cases hv
  have hrun : (container p [check] none).run v = check.run seen := by
    rw [run_container hnull, receive_of_admits hv]
    exact runAll_singleton check seen
  rw [Check.verdict, Tree.verdict, hd, ← decision_of_says hb (says_ofCheck hk hcheck hp hv), ← hrun]
  rfl

theorem verdict_of_told {v seen : Value} {b : Bool} (hk : c.kind? = some k) (hp : k ∈ RuleKind.checksOf p)
    (hm : k ≠ .mismatch) (hc : c.WellFormed p) (hs : c.isShowable = true) (ht : c.isTellable = true) (hv : p.Admits v seen)
    (hb : c.Holds seen ↔ b = true) : c.verdict p v = some b := by
  rw [verdict_of_admits hk hp hm hc hs hv hb, ht, Bool.or_true, if_pos rfl]

end Alone

end Validator

end RuleTree
