import RuleTree.Document.Parser

/-!
# The order of paths

Paths are in a linear order, in which a node comes before everything inside it. The paths of rule documents go through lists
of rules by turns of a field and an element; of these, any two have an order. So the errors of a document can be sorted, and
an error that comes before all others is the first of them.
-/

namespace RuleTree.Document

/-! ### Steps -/

namespace Segment

variable {s t u : Segment}

theorem lt_irrefl (s : Segment) : s.lt s = false := by
  cases s with
  | field a => exact decide_eq_false (String.lt_irrefl a)
  | element i => exact decide_eq_false (Nat.lt_irrefl i)

theorem lt_trans (hst : s.lt t = true) (htu : t.lt u = true) : s.lt u = true := by
  cases s <;> cases t <;> cases u
  case field.field.field a b c =>
    simp only [lt, decide_eq_true_eq] at hst htu ⊢
    exact String.lt_trans hst htu
  case element.element.element i j k =>
    simp only [lt, decide_eq_true_eq] at hst htu ⊢
    omega
  all_goals simp_all [lt]

theorem lt_of_not_lt (hne : s ≠ t) (h : s.lt t = false) : t.lt s = true := by
  cases s <;> cases t
  case field.field a b =>
    simp only [lt, decide_eq_false_iff_not, String.not_lt, decide_eq_true_eq] at h ⊢
    rw [← String.not_le]
    intro hab
    exact hne (congrArg field (String.le_antisymm hab h))
  case element.element i j =>
    simp only [lt, decide_eq_false_iff_not, decide_eq_true_eq] at h ⊢
    have hij : i ≠ j := fun hij => hne (congrArg element hij)
    omega
  all_goals simp_all [lt]

end Segment

/-! ### Paths -/

section Paths

variable {s t : Segment} {p q r : List Segment}

theorem before_nil (p : List Segment) : before p [] = false := by
  cases p <;> rfl

theorem before_cons_iff : before (s :: p) (t :: q) = true ↔ s.lt t = true ∨ s = t ∧ before p q = true := by
  rw [before]
  by_cases hst : s = t
  · subst hst
    simp [Segment.lt_irrefl]
  · simp [hst]

theorem before_cons_of_lt (h : s.lt t = true) : before (s :: p) (t :: q) = true := before_cons_iff.mpr (.inl h)

theorem before_cons (s : Segment) (h : before p q = true) : before (s :: p) (s :: q) = true :=
  before_cons_iff.mpr (.inr ⟨rfl, h⟩)

theorem before_irrefl (p : List Segment) : before p p = false := by
  induction p with
  | nil => rfl
  | cons s p ih => rw [before, if_pos rfl, ih]

theorem before_trans (hpq : before p q = true) (hqr : before q r = true) : before p r = true := by
  induction p generalizing q r with
  | nil =>
    cases r with
    | nil => rw [before_nil] at hqr; cases hqr
    | cons u r => rfl
  | cons s p ih =>
    cases q with
    | nil => rw [before_nil] at hpq; cases hpq
    | cons t q =>
      cases r with
      | nil => rw [before_nil] at hqr; cases hqr
      | cons u r =>
        rw [before_cons_iff] at hpq hqr ⊢
        rcases hpq with hst | ⟨rfl, hpq⟩
        · rcases hqr with htu | ⟨rfl, -⟩
          · exact .inl (Segment.lt_trans hst htu)
          · exact .inl hst
        · rcases hqr with htu | ⟨rfl, hqr⟩
          · exact .inl htu
          · exact .inr ⟨rfl, ih hpq hqr⟩

theorem before_of_not_before (hne : p ≠ q) (h : before p q = false) : before q p = true := by
  induction p generalizing q with
  | nil =>
    cases q with
    | nil => exact absurd rfl hne
    | cons t q => cases h
  | cons s p ih =>
    cases q with
    | nil => rfl
    | cons t q =>
      rw [before_cons_iff]
      rw [before] at h
      by_cases hst : s = t
      · subst hst
        rw [if_pos rfl] at h
        exact .inr ⟨rfl, ih (fun hpq => hne (congrArg _ hpq)) h⟩
      · rw [if_neg hst] at h
        exact .inl (Segment.lt_of_not_lt hst h)

theorem notAfter_trans (hpq : before q p = false) (hqr : before r q = false) : before r p = false := by
  rw [← Bool.not_eq_true] at hpq hqr ⊢
  intro hrp
  by_cases heq : q = p
  · subst heq
    exact hqr hrp
  · have hp := before_of_not_before heq (by simpa using hpq)
    exact hqr (before_trans hrp hp)

theorem notAfter_total (p q : List Segment) : before q p = false ∨ before p q = false := by
  cases h : before q p with
  | false => exact .inl rfl
  | true =>
    refine .inr (Bool.eq_false_iff.mpr fun hpq => ?_)
    have hpp := before_trans hpq h
    rw [before_irrefl] at hpp
    cases hpp

/-- Fields and elements by turns. -/
inductive Alternates : List Segment → Prop
  | here : Alternates []
  | field (name : String) : Alternates [.field name]
  | inside {p : List Segment} (name : String) (index : Nat) (h : Alternates p) :
      Alternates (.field name :: .element index :: p)

theorem comparable_of_alternates (hp : Alternates p) (hq : Alternates q) : comparable p q = true := by
  induction hp generalizing q with
  | here => cases q <;> rfl
  | field a =>
    cases hq with
    | here => rfl
    | field b =>
      rw [comparable]
      split <;> rfl
    | inside b j hq =>
      rw [comparable]
      split <;> rfl
  | inside a i hp ih =>
    cases hq with
    | here => rfl
    | field b =>
      rw [comparable]
      split <;> rfl
    | inside b j hq =>
      rw [comparable, comparable, ih hq]
      split
      · split <;> rfl
      · rfl

end Paths

/-! ### The first error -/

/-- An error that comes before all others. -/
def First (m : FormError) (errors : List FormError) : Prop :=
  m ∈ errors ∧ ∀ e ∈ errors, e = m ∨ before m.path e.path = true

theorem sortErrors_eq_ok {errors : List FormError} (h : ∀ e ∈ errors, Alternates e.path) :
    sortErrors errors = .ok (errors.mergeSort fun e f => !before f.path e.path) := by
  have hall : (errors.all fun e => errors.all fun f => comparable e.path f.path) = true := by
    simp only [List.all_eq_true]
    exact fun e he f hf => comparable_of_alternates (h e he) (h f hf)
  rw [sortErrors, if_pos hall]

theorem sortErrors_first {errors : List FormError} {m : FormError} (h : ∀ e ∈ errors, Alternates e.path)
    (hm : First m errors) : ∃ rest, sortErrors errors = .ok (m :: rest) := by
  rw [sortErrors_eq_ok h]
  obtain ⟨hmem, hfirst⟩ := hm
  have hsorted : (errors.mergeSort fun e f => !before f.path e.path).Pairwise
      fun e f => (!before f.path e.path) = true := by
    refine List.pairwise_mergeSort ?_ ?_ errors
    · intro e f g hef hfg
      rw [Bool.not_eq_true'] at hef hfg ⊢
      exact notAfter_trans hef hfg
    · intro e f
      simpa using notAfter_total e.path f.path
  have hsame (e : FormError) : e ∈ errors.mergeSort (fun e f => !before f.path e.path) ↔ e ∈ errors := List.mem_mergeSort
  generalize errors.mergeSort (fun e f => !before f.path e.path) = sorted at hsorted hsame
  cases sorted with
  | nil => exact absurd ((hsame m).mpr hmem) List.not_mem_nil
  | cons e rest =>
    rcases hfirst e ((hsame e).mp List.mem_cons_self) with rfl | hbefore
    · exact ⟨rest, rfl⟩
    · rcases List.mem_cons.mp ((hsame m).mpr hmem) with rfl | hrest
      · exact ⟨rest, rfl⟩
      · have hnot := List.rel_of_pairwise_cons hsorted hrest
        rw [hbefore] at hnot
        cases hnot

end RuleTree.Document
