import RuleTree.Proofs.Rows
import RuleTree.Validator.OfTree

/-!
# Outcomes of building

What it says about the steps of a build that the whole succeeds: each step succeeds, each condition holds, and the trail of a
fault plays no part.
-/

namespace RuleTree.Validator

/-! ### Steps -/

theorem fault_ne_ok {α : Type} {f : SchemaFault} {a : α} : (fault f : Build α) ≠ .ok a := by
  intro h
  cases h

theorem ensure_eq_ok_iff {holds : Bool} {f : SchemaFault} {u : Unit} :
    ensure holds f = .ok u ↔ holds = true := by
  cases holds with
  | false => simp [ensure, fault]
  | true => simp [ensure]

theorem ensureWritable_eq_ok_iff {v : Value} {u : Unit} : ensureWritable v = .ok u ↔ v.isWritable = true := by
  unfold ensureWritable
  cases v.isWritable <;> simp

theorem within_eq_ok_iff {α : Type} {step : Step} {x : Build α} {a : α} :
    within step x = .ok a ↔ x = .ok a := by
  cases x with
  | error e =>
    constructor
    · intro h
      cases h
    · intro h
      cases h
  | ok b => exact Iff.rfl

/-! ### Kinds -/

theorem gate_eq_ok_iff {t : Tree} {allowed : List RuleKind} {k : RuleKind} :
    gate t allowed = .ok k ↔ t.kind? = some k ∧ k ∈ allowed := by
  unfold gate
  cases h : t.kind? with
  | none => simp [fault]
  | some j =>
    by_cases hj : j ∈ allowed
    · simp only [List.contains_iff_mem.mpr hj, if_true, Except.ok.injEq, Option.some.injEq]
      constructor
      · intro h'
        subst h'
        exact ⟨rfl, hj⟩
      · exact fun h => h.1
    · simp only [List.contains_iff_mem, hj, if_false, Option.some.injEq]
      constructor
      · exact fun h => absurd h fault_ne_ok
      · intro h'
        obtain ⟨rfl, hk⟩ := h'
        exact absurd hk hj

/-! ### Messages -/

/-- The message of a rule as it is used: none, or a text that is not empty. -/
def givenMessage : Value → Option String
  | .str s => if s.isEmpty then none else some s
  | _ => none

def IsMessage (m : Value) : Prop := m = .null ∨ ∃ s, m = .str s

theorem messageOf_eq_ok_iff {k : RuleKind} {m : Value} {message : Option String} :
    messageOf k m = .ok message ↔ IsMessage m ∧ givenMessage m = message := by
  cases m with
  | null => simp [messageOf, IsMessage, givenMessage]
  | str s => simp [messageOf, IsMessage, givenMessage]
  | _ => simp [messageOf, IsMessage, fault]

end RuleTree.Validator
