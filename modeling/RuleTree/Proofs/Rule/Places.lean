import RuleTree.Rule.Tree

/-!
# Places in a tree

Which kinds the tables of places list, and how the tables lie in one another.
-/

namespace RuleTree.RuleKind

variable {p : Primitive} {k : RuleKind}

theorem mem_values : k ∈ values ↔ ∃ p, k = .container p := by
  simp only [values, List.mem_map]
  constructor
  · intro h'
    obtain ⟨p, -, rfl⟩ := h'
    exact ⟨p, rfl⟩
  · intro h'
    obtain ⟨p, rfl⟩ := h'
    exact ⟨p, p.mem_all, rfl⟩

theorem mem_wrappable : k ∈ wrappable ↔ k = .union ∨ ∃ p, k = .container p := by
  rw [wrappable, List.mem_cons, mem_values]

theorem mem_bindable : k ∈ bindable ↔ k = .required ∨ k = .union ∨ ∃ p, k = .container p := by
  rw [bindable, List.mem_cons, mem_wrappable]

theorem wrappable_bindable (h : k ∈ wrappable) : k ∈ bindable := List.mem_cons_of_mem _ h

theorem values_bindable (h : k ∈ values) : k ∈ bindable := wrappable_bindable (List.mem_cons_of_mem _ h)

theorem not_mem_bindable_of_check {c : Check} (h : c.kind? = some k) : k ∉ bindable := by
  intro hk
  cases c <;> cases h <;> simp [mem_bindable] at hk

theorem mem_checksOf (h : k ∈ childrenOf p) (hk : k ≠ .mismatch) : k ∈ checksOf p := by
  rcases List.mem_cons.mp h with rfl | h
  · exact absurd rfl hk
  · exact h

theorem alternatives_children (h : k ∈ alternativesOf p) : k ∈ childrenOf p :=
  List.mem_cons_of_mem _ (List.mem_filter.mp h).1

theorem mismatch_not_mem_alternativesOf (p : Primitive) : .mismatch ∉ alternativesOf p := by
  cases p <;> decide

/-! ### Kinds inside containers -/

theorem bindable_not_mem_childrenOf (h : k ∈ bindable) : k ∉ childrenOf p := by
  rcases mem_bindable.mp h with rfl | rfl | ⟨q, rfl⟩
  · cases p <;> decide
  · cases p <;> decide
  · cases p <;> simp [childrenOf, checksOf]

theorem prop_mem_childrenOf_iff : .prop ∈ childrenOf p ↔ p = .object := by
  cases p <;> decide

theorem item_mem_childrenOf_iff : .item ∈ childrenOf p ↔ p = .array := by
  cases p <;> decide

theorem range_mem_childrenOf_iff : .range ∈ childrenOf p ↔ p = .number := by
  cases p <;> decide

end RuleTree.RuleKind
