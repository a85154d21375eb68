import Mathlib.Algebra.Order.Ring.Nat
import RuleTree.Number.Decimal

/-!
# Decimal digits

The digits of a natural read back as the natural, and their number tells between which powers of ten it lies.
-/

namespace RuleTree.Decimal

section Digits

variable {n : Nat} {cs ds : List Char}

theorem ofDigits_eq_ofDigitChars (cs : List Char) : ofDigits cs = Nat.ofDigitChars 10 cs 0 := rfl

theorem ofDigits_append (cs ds : List Char) : ofDigits (cs ++ ds) = ofDigits cs * 10 ^ ds.length + ofDigits ds := by
  rw [ofDigits_eq_ofDigitChars, Nat.ofDigitChars_append, Nat.ofDigitChars_eq_ofDigitChars_zero, Nat.mul_comm]
  rfl

theorem ofDigits_zeros (k : Nat) : ofDigits (List.replicate k '0') = 0 := by
  induction k with
  | zero => rfl
  | succ k ih => rw [List.replicate_succ', ofDigits_append, ih]; rfl

theorem ofDigits_append_zeros (cs : List Char) (k : Nat) : ofDigits (cs ++ List.replicate k '0') = ofDigits cs * 10 ^ k := by
  rw [ofDigits_append, ofDigits_zeros, List.length_replicate, Nat.add_zero]

theorem ofDigits_zeros_append (cs : List Char) (k : Nat) : ofDigits (List.replicate k '0' ++ cs) = ofDigits cs := by
  rw [ofDigits_append, ofDigits_zeros, Nat.zero_mul, Nat.zero_add]

theorem ofDigits_digits (n : Nat) : ofDigits (digits n) = n := Nat.ofDigitChars_ten_toDigits

theorem digits_ne_nil (n : Nat) : digits n ≠ [] := Nat.toDigits_ne_nil

theorem isDigit_of_mem_digits : ∀ c ∈ digits n, isDigit c = true :=
  fun _ hc => Nat.isDigit_of_mem_toDigits (by decide) (by decide) hc

theorem length_digits_pos (n : Nat) : 0 < (digits n).length := Nat.length_toDigits_pos

theorem lt_pow_length_digits (n : Nat) : n < 10 ^ (digits n).length :=
  (Nat.length_toDigits_le_iff (by decide) (length_digits_pos n)).mp (Nat.le_refl _)

/-- A positive natural has no fewer digits than it needs. -/
theorem pow_length_digits_le (hn : 0 < n) : 10 ^ ((digits n).length - 1) ≤ n := by
  rcases Nat.lt_or_ge n (10 ^ ((digits n).length - 1)) with hlt | hle
  · by_cases hone : (digits n).length = 1
    · rw [hone] at hlt
      omega
    · have hpos := length_digits_pos n
      have hle := (Nat.length_toDigits_le_iff (b := 10) (by decide) (by omega)).mpr hlt
      rw [digits] at hpos hone hle
      omega
  · exact hle

/-- A positive natural does not begin with a zero. -/
theorem head?_digits (hn : 0 < n) : (digits n).head? ≠ some '0' := by
  induction n using Nat.strongRecOn with
  | ind n ih =>
    by_cases hsmall : n < 10
    · rw [digits, Nat.toDigits_of_lt_base hsmall]
      have hall : ∀ i : Fin 10, 0 < i.val → [Nat.digitChar i].head? ≠ some '0' := by decide
      exact hall ⟨n, hsmall⟩ hn
    · -- The last digit stands behind those of the tenth, which is positive.
      have hfront := ih (n / 10) (by omega) (by omega)
      rw [digits, Nat.toDigits_of_base_le (by decide) (by omega)]
      rw [digits] at hfront
      cases hd : Nat.toDigits 10 (n / 10) with
      | nil => exact absurd hd Nat.toDigits_ne_nil
      | cons c cs => rwa [hd] at hfront

end Digits

/-! ### Integers that are written -/

theorem isWritable_iff {i : Int} : isWritable i = true ↔ i.natAbs < 10 ^ maxDigits := by
  rw [isWritable, decide_eq_true_eq]
  exact Nat.length_toDigits_le_iff (by decide) (by decide)

/-- The least natural of more digits than a number. -/
def beyond (width : Nat) : Nat := 10 ^ width

/-- The least integer with more digits than are written. -/
@[irreducible]
def leastUnwritable : Int := beyond maxDigits

theorem isWritable_leastUnwritable : isWritable leastUnwritable = false := by
  rw [Bool.eq_false_iff, Ne, isWritable_iff, leastUnwritable, Int.natAbs_natCast, beyond]
  exact Nat.lt_irrefl _

theorem lt_leastUnwritable {i : Int} (h : isWritable i = true) : i < leastUnwritable := by
  rw [isWritable_iff] at h
  rw [leastUnwritable, beyond]
  omega

end RuleTree.Decimal
