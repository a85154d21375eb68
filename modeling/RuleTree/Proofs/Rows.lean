import Mathlib.Data.List.Forall2

/-!
# Outcomes and rows that correspond

What the steps of a computation that may fail say about its outcome, and what two rows say about each other if their elements
correspond one by one.
-/

namespace RuleTree

/-! ### Outcomes -/

section Outcomes

variable {ε α β : Type} {e : ε} {a b : α}

theorem bind_eq_ok_iff {x : Except ε α} {f : α → Except ε β} {b : β} : x >>= f = .ok b ↔ ∃ a, x = .ok a ∧ f a = .ok b := by
  cases x with
  | error e => simp [bind, Except.bind]
  | ok a => simp [bind, Except.bind]

theorem bind_eq_error_iff {x : Except ε α} {f : α → Except ε β} :
    x >>= f = .error e ↔ x = .error e ∨ ∃ a, x = .ok a ∧ f a = .error e := by
  cases x with
  | error d => simp [bind, Except.bind]
  | ok a => simp [bind, Except.bind]

theorem map_eq_ok_iff {x : Except ε α} {f : α → β} {b : β} : x.map f = .ok b ↔ ∃ a, x = .ok a ∧ f a = b := by
  cases x with
  | error e => simp [Except.map]
  | ok a => simp [Except.map]

theorem map_eq_error_iff {x : Except ε α} {f : α → β} : x.map f = .error e ↔ x = .error e := by
  cases x with
  | error d => simp [Except.map]
  | ok a => simp [Except.map]

theorem pure_eq_ok_iff : (pure a : Except ε α) = .ok b ↔ a = b := by
  simp [pure, Except.pure]

theorem pure_ne_error : (pure a : Except ε α) ≠ .error e := by
  intro h
  cases h

theorem exists_ok_of_any {result : Except ε α} {p : α → Bool} (h : result.toOption.any p = true) :
    ∃ a, result = .ok a ∧ p a = true := by
  cases result with
  | error e => cases h
  | ok a => exact ⟨a, rfl, h⟩

theorem map_eq_some_of_injective {f : α → β} (hf : Function.Injective f) {o : Option α} : o.map f = some (f a) ↔ o = some a := by
  rw [← Option.map_some]
  exact (Option.map_injective hf).eq_iff

end Outcomes

/-! ### Rows -/

section Rows

variable {α β : Type} {R S : α → β → Prop} {P : α → Prop} {Q : β → Prop} {xs : List α} {ys : List β}

theorem forall_mem_iff_of_forall₂ (h : List.Forall₂ R xs ys) (hR : ∀ x ∈ xs, ∀ y, R x y → (Q y ↔ P x)) :
    (∀ x ∈ xs, P x) ↔ ∀ y ∈ ys, Q y := by
  induction h with
  | nil => simp
  | cons hxy _ ih =>
    rw [List.forall_mem_cons, List.forall_mem_cons, hR _ List.mem_cons_self _ hxy,
      ih fun x hx => hR x (List.mem_cons_of_mem _ hx)]

theorem exists_left_of_forall₂ (h : List.Forall₂ R xs ys) {y : β} (hy : y ∈ ys) : ∃ x ∈ xs, R x y := by
  induction h with
  | nil => cases hy
  | cons hxy _ ih =>
    rcases List.mem_cons.mp hy with rfl | hy
    · exact ⟨_, List.mem_cons_self, hxy⟩
    · obtain ⟨x, hx, hR⟩ := ih hy
      exact ⟨x, List.mem_cons_of_mem _ hx, hR⟩

theorem exists_right_of_forall₂ (h : List.Forall₂ R xs ys) {x : α} (hx : x ∈ xs) : ∃ y ∈ ys, R x y := by
  induction h with
  | nil => cases hx
  | cons hxy _ ih =>
    rcases List.mem_cons.mp hx with rfl | hx
    · exact ⟨_, List.mem_cons_self, hxy⟩
    · obtain ⟨y, hy, hR⟩ := ih hx
      exact ⟨y, List.mem_cons_of_mem _ hy, hR⟩

theorem forall₂_imp_of_mem (h : List.Forall₂ R xs ys) (hS : ∀ x ∈ xs, ∀ y, R x y → S x y) : List.Forall₂ S xs ys := by
  induction h with
  | nil => exact .nil
  | cons hxy _ ih =>
    exact .cons (hS _ List.mem_cons_self _ hxy) (ih fun x hx => hS x (List.mem_cons_of_mem _ hx))

theorem forall₂_iff_of_forall₂ (h : List.Forall₂ R xs ys) (hS : ∀ x ∈ xs, ∀ y, R x y → (S x y ↔ P x)) :
    List.Forall₂ S xs ys ↔ ∀ x ∈ xs, P x := by
  induction h with
  | nil => simp
  | cons hxy _ ih =>
    rw [List.forall₂_cons, List.forall_mem_cons, hS _ List.mem_cons_self _ hxy,
      ih fun x hx => hS x (List.mem_cons_of_mem _ hx)]

theorem exists_forall₂_iff : (∃ ys, List.Forall₂ R xs ys) ↔ ∀ x ∈ xs, ∃ y, R x y := by
  induction xs with
  | nil => simp
  | cons x xs ih =>
    rw [List.forall_mem_cons, ← ih]
    simp only [List.forall₂_cons_left_iff]
    constructor
    · intro h'
      obtain ⟨_, y, ys, hy, hys, -⟩ := h'
      exact ⟨⟨y, hy⟩, ys, hys⟩
    · intro h'
      obtain ⟨⟨y, hy⟩, ys, hys⟩ := h'
      exact ⟨y :: ys, y, ys, hy, hys, rfl⟩

theorem exists_forall₂_of_forall₂ {T : β → β → Prop} (h : List.Forall₂ R xs ys)
    (hstep : ∀ x ∈ xs, ∀ y, R x y → ∃ z, S x z ∧ T y z) : ∃ zs, List.Forall₂ S xs zs ∧ List.Forall₂ T ys zs := by
  induction h with
  | nil => exact ⟨[], .nil, .nil⟩
  | cons hxy _ ih =>
    obtain ⟨z, hS, hT⟩ := hstep _ List.mem_cons_self _ hxy
    obtain ⟨zs, hSs, hTs⟩ := ih fun x hx => hstep x (List.mem_cons_of_mem _ hx)
    exact ⟨z :: zs, .cons hS hSs, .cons hT hTs⟩

theorem split_of_forall₂ {before after : List β} {y : β} (h : List.Forall₂ R xs (before ++ y :: after)) :
    ∃ first x rest, xs = first ++ x :: rest ∧ List.Forall₂ R first before ∧ R x y := by
  induction before generalizing xs with
  | nil =>
    obtain ⟨x, rest, hx, -, rfl⟩ := List.forall₂_cons_right_iff.mp h
    exact ⟨[], x, rest, rfl, .nil, hx⟩
  | cons b before ih =>
    obtain ⟨z, zs, hz, hzs, rfl⟩ := List.forall₂_cons_right_iff.mp h
    obtain ⟨first, x, rest, rfl, hfirst, hx⟩ := ih hzs
    exact ⟨z :: first, x, rest, rfl, .cons hz hfirst, hx⟩

theorem rel_mapM {γ : Type} {T : β → γ → Prop} {f : α → Option γ} {os : List (Option β)}
    (h : List.Forall₂ (fun o x => Option.Rel T o (f x)) os xs) : Option.Rel (List.Forall₂ T) (os.mapM id) (xs.mapM f) := by
  induction h with
  | nil => exact .some .nil
  | @cons o x os xs ho _ ih =>
    rw [List.mapM_cons, List.mapM_cons]
    generalize f x = c at ho ⊢
    generalize os.mapM id = ys at ih ⊢
    generalize xs.mapM f = zs at ih ⊢
    cases ho with
    | none => exact .none
    | some hyz =>
      cases ih with
      | none => exact .none
      | some hrest => exact .some (.cons hyz hrest)

end Rows

end RuleTree
