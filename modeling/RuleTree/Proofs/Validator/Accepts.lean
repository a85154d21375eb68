import Mathlib.Data.List.Basic
import RuleTree.Validator.Run

/-!
# Acceptance and rejection

Which values a validator accepts and which it rejects, one law for each sort of validator; the words of the errors play no part
in it. A run may do neither, where a limit or a name that it tells cannot be written. Such a run stops the alternatives of a
group, so that a group takes the first of its parts that does not reject.
-/

namespace RuleTree

namespace Verdict

variable {r : Verdict} {rs : List Verdict}

theorem isRejection_eq_true_iff : r.isRejection = true ↔ ∃ e, r = .error (.invalid e) := by
  cases r with
  | ok u => simp [isRejection]
  | error e => cases e <;> simp [isRejection]

theorem isOk_eq_true_iff : r.isOk = true ↔ r = .ok () := by
  cases r with
  | error e => simp [Except.isOk, Except.toBool]
  | ok u => simp [Except.isOk, Except.toBool]

theorem firstOr_of_forall {otherwise : Verdict} (h : ∀ r ∈ rs, r.isRejection = true) : firstOr otherwise rs = otherwise := by
  have hnone : rs.find? (!·.isRejection) = none := by
    rw [List.find?_eq_none]
    intro r hr
    simp [h r hr]
  rw [firstOr, hnone, Option.getD_none]

/-- The first verdict that is no rejection decides, and a rejection if there is none. -/
theorem firstOr_eq_ok_iff {cause : Cause} :
    firstOr (Validator.rejectFor cause) rs = .ok () ↔ rs.find? (!·.isRejection) = some (.ok ()) := by
  rw [firstOr]
  cases rs.find? (!·.isRejection) with
  | none => simp [Validator.rejectFor]
  | some r => simp

theorem isRejection_firstOr_iff {cause : Cause} :
    (firstOr (Validator.rejectFor cause) rs).isRejection = true ↔ rs.find? (!·.isRejection) = none := by
  rw [firstOr]
  cases h : rs.find? (!·.isRejection) with
  | none => simp [Validator.rejectFor, isRejection]
  | some r =>
    have hr := List.find?_some h
    simpa using hr

end Verdict

namespace Validator

open Verdict (isOk_eq_true_iff)

/-- Whether a validator rejects a value. -/
def rejects (c : Validator) (v : Value) : Bool := (c.run v).isRejection

section Outcomes

variable {c : Validator} {v : Value}

theorem accepts_iff_run_eq_ok : c.accepts v = true ↔ c.run v = .ok () := isOk_eq_true_iff

theorem rejects_iff_run_eq_error : c.rejects v = true ↔ ∃ e, c.run v = .error (.invalid e) := Verdict.isRejection_eq_true_iff

theorem rejects_eq_false_of_accepts (h : c.accepts v = true) : c.rejects v = false := by
  rw [rejects, accepts_iff_run_eq_ok.mp h]
  rfl

theorem accepts_eq_false_of_rejects (h : c.rejects v = true) : c.accepts v = false := by
  rw [Bool.eq_false_iff]
  intro haccepts
  cases h.symm.trans (rejects_eq_false_of_accepts haccepts)

end Outcomes

/-! ### Leaves -/

section Demand

variable {holds : Bool} {message : Option String} {cause : Cause}

theorem isOk_demand : (demand holds message cause).isOk = holds := by
  cases holds with
  | true => rfl
  | false =>
    unfold demand
    split
    · contradiction
    · split <;> rfl

end Demand

section Leaves

variable (v : Value) (message : Option String)

theorem accepts_equal (k : Kind) (expected : Value) :
    (equal k expected message).accepts v = (v.kind != k || v.eqv expected) := by
  rw [accepts, run]
  exact isOk_demand

theorem accepts_equalMoment (stamp : Int) (display : String) :
    (equalMoment stamp display message).accepts v = (v.kind != .primitive .date || v.stamp? == some stamp) := by
  rw [accepts, run]
  exact isOk_demand

theorem accepts_bound (b : Bound) (s : Subject) (limit : Number) :
    (bound b s limit message).accepts v =
      (v.kind != .primitive s.primitive || (s.measure? v).any (b.allows · limit)) := by
  rw [accepts, run]
  exact isOk_demand

theorem accepts_range (low high : Number) :
    (range low high message).accepts v =
      (v.kind != .primitive .number || v.number?.any fun x => low.le x && x.le high) := by
  rw [accepts, run]
  exact isOk_demand

theorem accepts_pattern (p : Pattern) (literal : String) :
    (pattern p literal message).accepts v = v.str?.all p.search := by
  rw [accepts, run]
  exact isOk_demand

theorem accepts_dateBound (b : DateBound) (stamp : Int) (display : String) :
    (dateBound b stamp display message).accepts v = stampHolds v (b.allows · stamp) := by
  rw [accepts, run]
  exact isOk_demand

theorem accepts_between (first last : Int) (display : String) :
    (between first last display message).accepts v = stampHolds v fun s => first ≤ s && s ≤ last := by
  rw [accepts, run]
  exact isOk_demand

end Leaves

/-! ### Containers -/

theorem runAll_eq_ok_iff {cs : List Validator} {v : Value} : runAll cs v = .ok () ↔ ∀ c ∈ cs, c.accepts v = true := by
  induction cs with
  | nil => simp
  | cons c cs ih =>
    rw [runAll, List.forall_mem_cons, ← ih, accepts_iff_run_eq_ok]
    cases c.run v with
    | error e => simp
    | ok u => simp

theorem run_container {p : Primitive} {cs : List Validator} {mismatch : Option String} {v : Value} (hv : v ≠ .null) :
    (container p cs mismatch).run v =
      match receive p v with
      | .error cause => rejectFor (cause.unless mismatch)
      | .ok seen => runAll cs seen := by
  unfold run
  cases v with
  | null => exact absurd rfl hv
  | _ => rfl

theorem accepts_container_null (p : Primitive) (cs : List Validator) (mismatch : Option String) :
    (container p cs mismatch).accepts .null = true := by
  rw [accepts, run_container_null]
  rfl

theorem accepts_container_iff {p : Primitive} {cs : List Validator} {mismatch : Option String} {v : Value} :
    (container p cs mismatch).accepts v = true ↔
      v = .null ∨ ∃ seen, receive p v = .ok seen ∧ ∀ c ∈ cs, c.accepts seen = true := by
  by_cases hv : v = .null
  · subst hv
    simp [accepts_container_null]
  · rw [accepts_iff_run_eq_ok, run_container hv]
    cases hr : receive p v with
    | error cause => simp [hv, rejectFor]
    | ok seen => simp [hv, runAll_eq_ok_iff]

/-! ### Alternatives -/

theorem find_runAlternatives (cs : List Validator) (v : Value) :
    (runAlternatives cs v).find? (!·.isRejection) = (cs.find? fun c => !c.rejects v).map (·.run v) := by
  induction cs with
  | nil => simp
  | cons c cs ih =>
    rw [runAlternatives, List.find?_cons, rejects]
    cases h : c.run v with
    | ok u => simp [Verdict.isRejection, h]
    | error e =>
      cases e with
      | invalid e => simpa [Verdict.isRejection] using ih
      | unwritable => simp [Verdict.isRejection, h]

/-- Alternatives accept a value if the first that does not reject it does. -/
theorem accepts_any_iff {cs : List Validator} {v : Value} :
    (any cs).accepts v = true ↔ ∃ c, cs.find? (fun c => !c.rejects v) = some c ∧ c.accepts v = true := by
  rw [accepts_iff_run_eq_ok, run, decideAny, Verdict.firstOr_eq_ok_iff, find_runAlternatives, Option.map_eq_some_iff]
  simp only [accepts_iff_run_eq_ok]

theorem rejects_any_iff {cs : List Validator} {v : Value} :
    (any cs).rejects v = true ↔ ∀ c ∈ cs, c.rejects v = true := by
  rw [rejects, run, decideAny, Verdict.isRejection_firstOr_iff, find_runAlternatives, Option.map_eq_none_iff,
    List.find?_eq_none]
  simp

theorem find_runBranches (bs : List (Primitive × Validator)) (v : Value) :
    (runBranches bs v).find? (!·.isRejection) =
      (bs.find? fun b => offers v b.1 && !b.2.rejects v).map (·.2.run v) := by
  induction bs with
  | nil => simp
  | cons b bs ih =>
    rw [runBranches, List.find?_cons, rejects]
    cases offers v b.1 with
    | false => simpa using ih
    | true =>
      cases h : b.2.run v with
      | ok u => simp [Verdict.isRejection, h]
      | error e =>
        cases e with
        | invalid e => simpa [Verdict.isRejection] using ih
        | unwritable => simp [Verdict.isRejection, h]

section Unions

variable {kinds : List Primitive} {mismatch : Option String} {v : Value} {rs : List Verdict}

theorem decideUnion_eq_ok_iff : decideUnion kinds mismatch v rs = .ok () ↔ rs.find? (!·.isRejection) = some (.ok ()) := by
  unfold decideUnion
  split
  · simp [rejectFor]
  · next only =>
    cases only with
    | ok u => simp [Verdict.isRejection]
    | error e => cases e <;> simp [Verdict.isRejection]
  · exact Verdict.firstOr_eq_ok_iff

theorem isRejection_decideUnion_iff :
    (decideUnion kinds mismatch v rs).isRejection = true ↔ rs.find? (!·.isRejection) = none := by
  unfold decideUnion
  split
  · simp [rejectFor, Verdict.isRejection]
  · next only => simp
  · exact Verdict.isRejection_firstOr_iff

theorem run_union {bs : List (Primitive × Validator)} (hv : v ≠ .null) :
    (union bs mismatch).run v = decideUnion (bs.map Prod.fst) mismatch v (runBranches bs v) := by
  rw [run]
  exact fun h => hv h

/-- A union accepts a value if the first branch does that the value is offered to and that does not reject it. -/
theorem accepts_union_iff {bs : List (Primitive × Validator)} : (union bs mismatch).accepts v = true ↔
    v = .null ∨ ∃ b, bs.find? (fun b => offers v b.1 && !b.2.rejects v) = some b ∧ b.2.accepts v = true := by
  by_cases hv : v = .null
  · subst hv
    simp [accepts_iff_run_eq_ok]
  · rw [accepts_iff_run_eq_ok, run_union hv, decideUnion_eq_ok_iff, find_runBranches, Option.map_eq_some_iff, or_iff_right hv]
    simp only [accepts_iff_run_eq_ok]

theorem rejects_union_iff {bs : List (Primitive × Validator)} : (union bs mismatch).rejects v = true ↔
    v ≠ .null ∧ ∀ b ∈ bs, offers v b.1 = true → b.2.rejects v = true := by
  by_cases hv : v = .null
  · subst hv
    simp [rejects, Verdict.isRejection]
  · rw [rejects, run_union hv, isRejection_decideUnion_iff, find_runBranches, Option.map_eq_none_iff, List.find?_eq_none]
    simp [hv]

end Unions

theorem offers_of_receive {p : Primitive} {v seen : Value} (h : receive p v = .ok seen) : offers v p = true := by
  unfold receive at h
  split at h
  · next s =>
    cases hm : Moment.read? s with
    | none => simp [hm] at h
    | some m => simp [offers, hm]
  · by_cases hk : v.kind = .primitive p
    · simp [offers, hk]
    · simp [hk] at h

/-! ### Binders -/

theorem accepts_prop_map {key : Key} {inner : Validator} {entries : List (Value × Value)} :
    (prop key inner).accepts (.map entries) = inner.accepts (Value.property key entries) := by
  rw [accepts, accepts, run]
  cases inner.run (Value.property key entries) with
  | error e => rfl
  | ok u => rfl

theorem eachItem_eq_ok_iff {run : Value → Verdict} {i : Nat} {vs : List Value} :
    eachItem run i vs = .ok () ↔ ∀ v ∈ vs, run v = .ok () := by
  induction vs generalizing i with
  | nil => simp [eachItem]
  | cons v vs ih =>
    rw [eachItem, List.forall_mem_cons]
    cases run v with
    | error e => simp
    | ok u => simpa using ih

theorem accepts_item_iff {inner : Validator} {v : Value} {items : List Value} (h : v.items? = some items) :
    (item inner).accepts v = true ↔ ∀ w ∈ items, inner.accepts w = true := by
  rw [accepts_iff_run_eq_ok, run]
  simp only [h, eachItem_eq_ok_iff, accepts_iff_run_eq_ok]

theorem accepts_required_none_iff {message : Option String} {v : Value} :
    (required none message).accepts v = true ↔ v ≠ .null := by
  cases v with
  | null => simp [accepts, run, rejectFor, Except.isOk, Except.toBool]
  | _ => simp [accepts, run, Except.isOk, Except.toBool]

theorem run_required_some {inner : Validator} {message : Option String} {v : Value} (hv : v ≠ .null) :
    (required (some inner) message).run v = inner.run v := by
  rw [run]
  exact fun h => hv h

theorem accepts_required_some_iff {inner : Validator} {message : Option String} {v : Value} :
    (required (some inner) message).accepts v = true ↔ v ≠ .null ∧ inner.accepts v = true := by
  by_cases hv : v = .null
  · subst hv
    simp [accepts, run, rejectFor, Except.isOk, Except.toBool]
  · simp [accepts, run_required_some hv, hv]

end Validator

end RuleTree
