import RuleTree.Proofs.Build.Leaves
import RuleTree.Proofs.Rule.Writable
import RuleTree.Proofs.Validator.Accepts
import RuleTree.Proofs.Value.Genuine

/-!
# Rejection

What a rejection by a validator says about the rejections by its parts: which part it comes from, what the parts before did,
and what is added to the path on the way out.
-/

namespace RuleTree.Validator

variable {v : Value} {e : ValidationError}

/-! ### Leaves -/

theorem path_of_demand {holds : Bool} {message : Option String} {cause : Cause}
    (h : demand holds message cause = .error (.invalid e)) : e.path = [] := by
  unfold demand at h
  split at h
  · cases h
  · split at h
    · cases h
      rfl
    · cases h

theorem isWritable_of_number? {w : Value} {n : Number} (h : w.number? = some n) : w.isWritable = n.isWritable := by
  unfold Value.number? at h
  split at h
  · split at h
    · cases h
      rfl
    · cases h
  · cases h

/-- The run of a leaf is one demand. What it tells is what is to be told of the leaf. -/
theorem run_eq_demand [Text.CharacterNames] {k : Check} {m : Value} {parent : Option RuleKind} {c : Validator}
    (hc : ofCheck k m parent = .ok c) (v : Value) :
    ∃ holds message cause, c.run v = demand holds message cause ∧ cause.isWritable = k.isTellable := by
  cases k with
  | equal w =>
    have hc : ofEqual w m parent = .ok c := hc
    unfold ofEqual at hc
    split at hc
    · split at hc
      · simp only [bind_eq_ok_iff, pure_eq_ok_iff] at hc
        obtain ⟨_, -, rfl⟩ := hc
        exact ⟨_, _, _, by rw [run], rfl⟩
      · exact absurd hc fault_ne_ok
    · simp only [bind_eq_ok_iff, pure_eq_ok_iff] at hc
      obtain ⟨_, -, _, -, _, -, _, -, rfl⟩ := hc
      exact ⟨_, _, _, by rw [run], rfl⟩
  | bound b limit =>
    have hc : ofBound b limit m parent = .ok c := hc
    unfold ofBound at hc
    split at hc
    · exact absurd hc fault_ne_ok
    · exact absurd hc fault_ne_ok
    · next hlimit _ =>
      simp only [bind_eq_ok_iff, pure_eq_ok_iff] at hc
      obtain ⟨_, -, rfl⟩ := hc
      refine ⟨_, _, _, by rw [run], ?_⟩
      exact (isWritable_of_number? hlimit).symm
  | range min max =>
    obtain ⟨low, high, hlow, hhigh, -, -, rfl⟩ := ofRange_eq_ok_iff.mp hc
    refine ⟨_, _, _, by rw [run], ?_⟩
    rw [Check.isTellable, isWritable_of_number? hlow, isWritable_of_number? hhigh]
    rfl
  | pattern regex =>
    obtain ⟨_, _, -, -, -, rfl⟩ := ofPattern_eq_ok_iff.mp hc
    exact ⟨_, _, _, by rw [run], rfl⟩
  | dateBound b boundary =>
    obtain ⟨_, -, -, rfl⟩ := ofDateBound_eq_ok_iff.mp hc
    exact ⟨_, _, _, by rw [run], rfl⟩
  | between first last =>
    obtain ⟨_, _, -, -, -, -, rfl⟩ := ofBetween_eq_ok_iff.mp hc
    exact ⟨_, _, _, by rw [run], rfl⟩
  | mismatch => exact absurd hc fault_ne_ok
  | kindless name w => exact absurd hc fault_ne_ok

theorem path_of_ofCheck [Text.CharacterNames] {k : Check} {m : Value} {parent : Option RuleKind} {c : Validator}
    (hc : ofCheck k m parent = .ok c) (h : c.run v = .error (.invalid e)) : e.path = [] := by
  obtain ⟨holds, message, cause, hrun, -⟩ := run_eq_demand hc v
  exact path_of_demand (hrun ▸ h)

/-- A rejection by several verdicts together is not one of theirs. -/
theorem firstOr_eq_error {cause : Cause} {rs : List Verdict}
    (h : Verdict.firstOr (rejectFor cause) rs = .error (.invalid e)) : e = { cause } := by
  rw [Verdict.firstOr] at h
  cases hfind : rs.find? (!·.isRejection) with
  | none =>
    rw [hfind] at h
    cases h
    rfl
  | some r =>
    rw [hfind, Option.getD_some] at h
    subst h
    have hr := List.find?_some hfind
    cases hr

/-! ### Containers -/

/-- The first check that fails, behind checks that accept. -/
theorem runAll_eq_error {cs : List Validator} (h : runAll cs v = .error (.invalid e)) :
    ∃ before c after, cs = before ++ c :: after ∧ (∀ b ∈ before, b.accepts v = true) ∧ c.run v = .error (.invalid e) := by
  induction cs with
  | nil => cases h
  | cons c cs ih =>
    rw [runAll] at h
    cases hc : c.run v with
    | error f =>
      rw [hc] at h
      cases h
      exact ⟨[], c, cs, rfl, List.forall_mem_nil _, hc⟩
    | ok u =>
      rw [hc] at h
      obtain ⟨before, d, after, hcs, hbefore, hd⟩ := ih h
      refine ⟨c :: before, d, after, congrArg (List.cons c) hcs, ?_, hd⟩
      intro b hb
      rcases List.mem_cons.mp hb with rfl | hb
      · exact accepts_iff_run_eq_ok.mpr hc
      · exact hbefore b hb

theorem run_container_eq_error {p : Primitive} {cs : List Validator} {mismatch : Option String}
    (h : (container p cs mismatch).run v = .error (.invalid e)) :
    e.path = [] ∨ ∃ seen, receive p v = .ok seen ∧ runAll cs seen = .error (.invalid e) := by
  by_cases hv : v = .null
  · subst hv
    rw [run_container_null] at h
    cases h
  · rw [run_container hv] at h
    cases hr : receive p v with
    | error cause =>
      rw [hr] at h
      cases h
      exact .inl rfl
    | ok seen =>
      rw [hr] at h
      exact .inr ⟨seen, rfl, h⟩

theorem seen_of_receive {p : Primitive} {seen : Value} (h : receive p v = .ok seen) : seen = v ∨ p = .date := by
  by_cases hk : v.kind = .primitive p
  · rw [receive_of_kind hk] at h
    split at h
    · cases h
    · cases h
      exact .inl rfl
  · exact .inr ((receive_of_kind_ne hk).mp h).1

/-! ### Unions -/

theorem mem_of_runBranches {bs : List (Primitive × Validator)} {r : Verdict} (h : r ∈ runBranches bs v) :
    ∃ b ∈ bs, offers v b.1 = true ∧ b.2.run v = r := by
  induction bs with
  | nil =>
    rw [runBranches_nil] at h
    cases h
  | cons b bs ih =>
    have hrest (h : r ∈ runBranches bs v) : ∃ c ∈ b :: bs, offers v c.1 = true ∧ c.2.run v = r := by
      obtain ⟨c, hc, hr⟩ := ih h
      exact ⟨c, List.mem_cons_of_mem _ hc, hr⟩
    rw [runBranches] at h
    split at h
    · next ho =>
      split at h
      · next hb =>
        rcases List.mem_cons.mp h with rfl | h
        · exact ⟨b, List.mem_cons_self, ho, hb⟩
        · exact hrest h
      · exact ⟨b, List.mem_cons_self, ho, (List.mem_singleton.mp h).symm⟩
    · exact hrest h

theorem decideUnion_eq_error {kinds : List Primitive} {mismatch : Option String} {rs : List Verdict}
    (h : decideUnion kinds mismatch v rs = .error (.invalid e)) : e.path = [] ∨ rs = [.error (.invalid e)] := by
  unfold decideUnion at h
  split at h
  · cases h
    exact .inl rfl
  · subst h
    exact .inr rfl
  · rw [firstOr_eq_error h]
    exact .inl rfl

theorem run_union_eq_error {bs : List (Primitive × Validator)} {mismatch : Option String}
    (h : (union bs mismatch).run v = .error (.invalid e)) :
    e.path = [] ∨ ∃ b ∈ bs, b.2.run v = .error (.invalid e) := by
  by_cases hv : v = .null
  · subst hv
    rw [run_union_null] at h
    cases h
  · rw [run_union hv] at h
    refine (decideUnion_eq_error h).imp_right fun hresults => ?_
    obtain ⟨b, hb, -, hrun⟩ := mem_of_runBranches (hresults ▸ List.mem_cons_self)
    exact ⟨b, hb, hrun⟩

/-! ### Binders -/

theorem locatedAt_eq_invalid {l : Location} {r : RunError} (h : r.locatedAt l = .invalid e) :
    ∃ f, r = .invalid f ∧ e = f.locatedAt l := by
  cases r with
  | invalid f =>
    rw [RunError.locatedAt] at h
    split at h
    · cases h
      exact ⟨f, rfl, rfl⟩
    · cases h
  | unwritable => cases h

theorem run_prop_eq_error {key : Key} {inner : Validator} (h : (prop key inner).run v = .error (.invalid e)) :
    ∃ es f, v = .map es ∧ inner.run (Value.property key es) = .error (.invalid f) ∧ e = f.locatedAt ⟨.property, key⟩ := by
  cases v with
  | map es =>
    rw [run] at h
    cases hi : inner.run (Value.property key es) with
    | error r =>
      rw [hi] at h
      obtain ⟨f, rfl, he⟩ := locatedAt_eq_invalid (Except.error.inj h)
      exact ⟨es, f, rfl, hi, he⟩
    | ok u =>
      rw [hi] at h
      cases h
  | _ =>
    rw [run] at h
    · cases h
    · intro es hes
      cases hes

theorem eachItem_eq_error {run : Value → Verdict} {i : Nat} {vs : List Value} (h : eachItem run i vs = .error (.invalid e)) :
    ∃ j x f, vs[j]? = some x ∧ (∀ y ∈ vs.take j, run y = .ok ()) ∧ run x = .error (.invalid f) ∧
      e = f.locatedAt ⟨.item, .index (i + j : Nat)⟩ := by
  induction vs generalizing i with
  | nil => cases h
  | cons w vs ih =>
    rw [eachItem] at h
    cases hw : run w with
    | error r =>
      rw [hw] at h
      obtain ⟨f, rfl, he⟩ := locatedAt_eq_invalid (Except.error.inj h)
      exact ⟨0, w, f, rfl, List.forall_mem_nil _, hw, he⟩
    | ok u =>
      rw [hw] at h
      obtain ⟨j, x, f, hx, hbefore, hf, he⟩ := ih h
      have hindex : i + 1 + j = i + (j + 1) := by omega
      rw [hindex] at he
      refine ⟨j + 1, x, f, hx, ?_, hf, he⟩
      intro y hy
      rw [List.take_succ_cons] at hy
      rcases List.mem_cons.mp hy with rfl | hy
      · exact hw
      · exact hbefore y hy

theorem run_item_eq_error {inner : Validator} (h : (item inner).run v = .error (.invalid e)) :
    ∃ items j x f, v.items? = some items ∧ items[j]? = some x ∧ (∀ y ∈ items.take j, inner.accepts y = true) ∧
      inner.run x = .error (.invalid f) ∧ e = f.locatedAt ⟨.item, .index j⟩ := by
  rw [run] at h
  split at h
  · next items hitems =>
    obtain ⟨j, x, f, hx, hbefore, hf, he⟩ := eachItem_eq_error h
    rw [Nat.zero_add] at he
    exact ⟨items, j, x, f, hitems, hx, fun y hy => accepts_iff_run_eq_ok.mpr (hbefore y hy), hf, he⟩
  · cases h

theorem run_required_eq_error {inner : Option Validator} {message : Option String}
    (h : (required inner message).run v = .error (.invalid e)) :
    e.path = [] ∨ ∃ c, inner = some c ∧ c.run v = .error (.invalid e) := by
  by_cases hv : v = .null
  · subst hv
    rw [run] at h
    cases h
    exact .inl rfl
  · cases inner with
    | none =>
      rw [run] at h
      · cases h
      · exact fun h => hv h
    | some c =>
      rw [run_required_some hv] at h
      exact .inr ⟨c, rfl, h⟩

end RuleTree.Validator
