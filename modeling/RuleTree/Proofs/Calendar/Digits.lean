import RuleTree.Calendar.Iso
import RuleTree.Calendar.Reader

/-!
# Digits of fixed width

A natural that is written with a fixed number of digits is read back, whatever follows.
-/

namespace RuleTree

namespace Decimal

/-! ### Single digits -/

theorem isDigit_digitChar {n : Nat} (h : n < 10) : isDigit (digitChar n) = true := by
  have hall : ∀ i : Fin 10, isDigit (digitChar i) = true := by decide
  exact hall ⟨n, h⟩

theorem digitValue_digitChar {n : Nat} (h : n < 10) : digitValue (digitChar n) = n := by
  have hall : ∀ i : Fin 10, digitValue (digitChar i) = i := by decide
  exact hall ⟨n, h⟩

/-! ### Rows of digits -/

theorem all_isDigit_lastDigits (width n : Nat) : ∀ c ∈ lastDigits width n, isDigit c = true := by
  induction width generalizing n with
  | zero => exact List.forall_mem_nil _
  | succ width ih =>
    intro c hc
    rw [lastDigits] at hc
    rcases List.mem_append.mp hc with hc | hc
    · exact ih (n / 10) c hc
    · obtain rfl := List.mem_singleton.mp hc
      exact isDigit_digitChar (Nat.mod_lt n (by omega))

theorem ofDigits_append_singleton (cs : List Char) (c : Char) :
    ofDigits (cs ++ [c]) = 10 * ofDigits cs + digitValue c := by
  unfold ofDigits
  rw [List.foldl_append]
  rfl

theorem ofDigits_lastDigits (width n : Nat) : ofDigits (lastDigits width n) = n % Nat.pow 10 width := by
  induction width generalizing n with
  | zero =>
    have hn : n % 1 = 0 := Nat.mod_one n
    exact hn.symm
  | succ width ih =>
    have hdigit : digitValue (digitChar (n % 10)) = n % 10 := digitValue_digitChar (Nat.mod_lt n (by omega))
    have hpow : Nat.pow 10 (width + 1) = 10 * Nat.pow 10 width := Nat.mul_comm _ _
    rw [lastDigits, ofDigits_append_singleton, ih, hdigit, hpow, Nat.mod_mul]
    omega

theorem readDigits_lastDigits {width n : Nat} (h : n < Nat.pow 10 width) (rest : List Char) :
    readDigits width (lastDigits width n ++ rest) = some (n, rest) := by
  have hlen := length_lastDigits width n
  have htake : (lastDigits width n ++ rest).take width = lastDigits width n := by
    rw [List.take_append_of_le_length (by omega), List.take_of_length_le (by omega)]
  have hdrop : (lastDigits width n ++ rest).drop width = rest := by
    rw [List.drop_append_of_le_length (by omega), List.drop_of_length_le (by omega), List.nil_append]
  have hall : (lastDigits width n).all isDigit = true := List.all_eq_true.mpr (all_isDigit_lastDigits width n)
  rw [readDigits, htake, hdrop, ofDigits_lastDigits, Nat.mod_eq_of_lt h]
  simp only [hlen, hall, and_self, if_true]

end Decimal

end RuleTree
