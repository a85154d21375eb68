import Mathlib.Algebra.Order.Ring.Rat
import Mathlib.Order.WithBot
import RuleTree.Number.Basic

/-!
# The order of numbers

Comparing numbers is comparing points of one line: the rationals with an end on either side. Integers, ratios and
floating-point numbers have their exact places on it.
-/

namespace RuleTree

namespace ExtendedRat

def line : ExtendedRat → WithBot (WithTop Rat)
  | .negInf => ⊥
  | .finite q => ((q : WithTop Rat) : WithBot (WithTop Rat))
  | .posInf => ((⊤ : WithTop Rat) : WithBot (WithTop Rat))

theorem line_injective : Function.Injective line := by
  intro a b h
  cases a with
  | negInf =>
    cases b with
    | negInf => rfl
    | finite r => exact absurd h.symm WithBot.coe_ne_bot
    | posInf => exact absurd h.symm WithBot.coe_ne_bot
  | finite q =>
    cases b with
    | negInf => exact absurd h WithBot.coe_ne_bot
    | finite r => exact congrArg finite (WithTop.coe_injective (WithBot.coe_injective h))
    | posInf => exact absurd (WithBot.coe_injective h) WithTop.coe_ne_top
  | posInf =>
    cases b with
    | negInf => exact absurd h WithBot.coe_ne_bot
    | finite r => exact absurd (WithBot.coe_injective h).symm WithTop.coe_ne_top
    | posInf => rfl

instance : LinearOrder ExtendedRat := LinearOrder.lift' line line_injective

theorem line_lt_line_iff {a b : ExtendedRat} : a.line < b.line ↔ a < b := Iff.rfl

theorem lt_iff (a b : ExtendedRat) : ExtendedRat.lt a b = true ↔ a < b := by
  rw [← line_lt_line_iff]
  cases a with
  | negInf =>
    cases b with
    | negInf => simp [ExtendedRat.lt]
    | finite r => simp [ExtendedRat.lt, line]
    | posInf => simp [ExtendedRat.lt, line]
  | finite q =>
    cases b with
    | negInf => simp [ExtendedRat.lt, line]
    | finite r => simp [ExtendedRat.lt, line]
    | posInf =>
      have h : (q : WithTop Rat) < ⊤ := WithTop.coe_lt_top q
      exact iff_of_true rfl (WithBot.coe_lt_coe.mpr h)
  | posInf =>
    cases b with
    | negInf => simp [ExtendedRat.lt, line]
    | finite r => simp [ExtendedRat.lt, line]
    | posInf => simp [ExtendedRat.lt]

end ExtendedRat

namespace Number

theorem lt_iff {a b : Number} :
    a.lt b = true ↔ ∃ x y, a.extended? = some x ∧ b.extended? = some y ∧ x < y := by
  unfold lt
  cases a.extended? with
  | none => simp
  | some x =>
    cases b.extended? with
    | none => simp
    | some y => simp [ExtendedRat.lt_iff]

theorem le_iff {a b : Number} :
    a.le b = true ↔ ∃ x y, a.extended? = some x ∧ b.extended? = some y ∧ x ≤ y := by
  unfold le
  cases a.extended? with
  | none => simp
  | some x =>
    cases b.extended? with
    | none => simp
    | some y =>
      rw [Bool.not_eq_true', ← Bool.not_eq_true, ExtendedRat.lt_iff, not_lt]
      simp

theorem eqv_iff {a b : Number} :
    a.eqv b = true ↔ ∃ x, a.extended? = some x ∧ b.extended? = some x := by
  unfold eqv
  cases a.extended? with
  | none => simp
  | some x =>
    cases b.extended? with
    | none => simp
    | some y =>
      simp only [beq_iff_eq, Option.some.injEq]
      constructor
      · intro h
        exact ⟨x, rfl, h.symm⟩
      · intro h
        obtain ⟨z, rfl, rfl⟩ := h
        rfl

theorem isNumber_iff {n : Number} : n.isNumber = true ↔ ∃ x, n.extended? = some x := Option.isSome_iff_exists


end Number

end RuleTree
