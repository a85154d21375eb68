import RuleTree.Number.Decimal
import RuleTree.Text.Digit

/-!
# Digits of every script and the blanks around them

No digit is a blank, so a text between digits loses only the blanks around it. A row of digits of any scripts writes a natural,
the one that decimal notation writes if the digits are its own.
-/

namespace RuleTree.Text

variable {c : Char} {cs : List Char}

/-! ### Blanks -/

theorem dropWhile_isBlank {before : List Char} (hbefore : ∀ c ∈ before, isBlank c = true) (hc : isBlank c = false) (cs : List Char) :
    (before ++ c :: cs).dropWhile isBlank = c :: cs := by
  rw [List.dropWhile_append_of_pos hbefore, List.dropWhile_cons, hc]
  rfl

/-- Only the blanks at the ends are taken off. -/
theorem strip_between {before core behind : List Char} (hbefore : ∀ c ∈ before, isBlank c = true)
    (hbehind : ∀ c ∈ behind, isBlank c = true) (hfirst : ∃ c rest, core = c :: rest ∧ isBlank c = false)
    (hlast : ∃ front c, core = front ++ [c] ∧ isBlank c = false) : strip (before ++ core ++ behind) = core := by
  obtain ⟨c, rest, hcore, hc⟩ := hfirst
  obtain ⟨front, e, hcore', he⟩ := hlast
  have hleft : (before ++ core ++ behind).dropWhile isBlank = core ++ behind := by
    rw [hcore, List.append_assoc, List.cons_append, dropWhile_isBlank hbefore hc]
  have hright : (core ++ behind).reverse.dropWhile isBlank = core.reverse := by
    have hblank : ∀ c ∈ behind.reverse, isBlank c = true := fun c hc => hbehind c (List.mem_reverse.mp hc)
    rw [hcore', List.reverse_append, List.reverse_append, List.reverse_singleton, List.singleton_append,
      dropWhile_isBlank hblank he]
  rw [strip, hleft, hright, List.reverse_reverse]

/-! ### Digits -/

/-- Where the scripts have their digits there are no blanks. -/
theorem zeroDigits_apart : ∀ z ∈ zeroDigits, z = 0x30 ∨ 0x660 ≤ z ∧ z + 9 < 0x1680 ∨ 0x1680 < z ∧ z + 9 < 0x2000 ∨ 0x3000 < z := by
  decide

theorem isDecimal_iff : isDecimal c = true ↔
    c.toNat < 128 ∧ 48 ≤ c.toNat ∧ c.toNat ≤ 57 ∨
      ¬c.toNat < 128 ∧ ∃ z ∈ zeroDigits, z ≤ c.toNat ∧ c.toNat ≤ z + 9 := by
  unfold isDecimal decimalDigit?
  dsimp only
  split
  · next h =>
    simp [h]
  · next h =>
    simp [h]

theorem isBlank_of_isDecimal (h : isDecimal c = true) : isBlank c = false := by
  simp only [isBlank, Bool.or_eq_false_iff, Bool.and_eq_false_iff, decide_eq_false_iff_not, beq_eq_false_iff_ne]
  rcases isDecimal_iff.mp h with hascii | ⟨hhigh, z, hz, hlow, hle⟩
  · omega
  · have hapart := zeroDigits_apart z hz
    omega

/-- The natural that a row of digits writes. -/
def decimalValue (cs : List Char) : Nat := cs.foldl (fun n c => 10 * n + (decimalDigit? c).getD 0) 0

theorem foldlM_decimals (h : ∀ c ∈ cs, isDecimal c = true) (n : Nat) :
    cs.foldlM (fun n c => (decimalDigit? c).map (10 * n + ·)) n =
      some (cs.foldl (fun n c => 10 * n + (decimalDigit? c).getD 0) n) := by
  induction cs generalizing n with
  | nil => rfl
  | cons c cs ih =>
    obtain ⟨hc, hcs⟩ := List.forall_mem_cons.mp h
    obtain ⟨digit, hdigit⟩ := Option.isSome_iff_exists.mp hc
    rw [List.foldlM_cons, List.foldl_cons, hdigit]
    exact ih hcs _

theorem ofDecimalDigits?_eq (h : ∀ c ∈ cs, isDecimal c = true) : ofDecimalDigits? cs = some (decimalValue cs) :=
  foldlM_decimals h 0

theorem decimalDigit?_of_isDigit (h : Decimal.isDigit c = true) : decimalDigit? c = some (Decimal.digitValue c) := by
  simp only [Decimal.isDigit, Bool.and_eq_true, decide_eq_true_eq] at h
  exact decimalDigit?_of_ascii c h.1 h.2

theorem foldl_digits (h : ∀ c ∈ cs, Decimal.isDigit c = true) (n : Nat) :
    cs.foldl (fun n c => 10 * n + (decimalDigit? c).getD 0) n = cs.foldl (fun n c => 10 * n + Decimal.digitValue c) n := by
  induction cs generalizing n with
  | nil => rfl
  | cons c cs ih =>
    obtain ⟨hc, hcs⟩ := List.forall_mem_cons.mp h
    rw [List.foldl_cons, List.foldl_cons, decimalDigit?_of_isDigit hc]
    exact ih hcs _

theorem decimalValue_of_isDigit (h : ∀ c ∈ cs, Decimal.isDigit c = true) : decimalValue cs = Decimal.ofDigits cs :=
  foldl_digits h 0

end RuleTree.Text
