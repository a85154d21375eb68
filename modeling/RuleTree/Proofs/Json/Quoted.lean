import Mathlib.Tactic.SplitIfs
import RuleTree.Json.Reader
import RuleTree.Json.Writer

/-!
# Quoted texts

A text that is written between quotes is read back, whatever follows the closing quote. What is not in ASCII is written in
codes: one unit of sixteen bits, or two for the characters beyond.
-/

namespace RuleTree

namespace Text

/-! ### Hexadecimal digits -/

theorem hexDigit?_digitChar {d : Nat} (h : d < 16) : hexDigit? (Nat.digitChar d) = some d := by
  have hall : ∀ i : Fin 16, hexDigit? (Nat.digitChar i) = some i.val := by decide
  exact hall ⟨d, h⟩

theorem unit?_digitChars {p q r s : Nat} (hp : p < 16) (hq : q < 16) (hr : r < 16) (hs : s < 16) :
    unit? (Nat.digitChar p) (Nat.digitChar q) (Nat.digitChar r) (Nat.digitChar s) =
      some (16 * (16 * (16 * p + q) + r) + s) := by
  simp [unit?, ofHexDigits?, hexDigit?_digitChar, hp, hq, hr, hs]

theorem toDigits_hex_step {n : Nat} (h : 16 ≤ n) : Nat.toDigits 16 n = Nat.toDigits 16 (n / 16) ++ [Nat.digitChar (n % 16)] :=
  Nat.toDigits_of_base_le (by decide) h

/-- Sixteen bits in four digits, zeros in front included. -/
theorem leftpad_toDigits {n : Nat} (h : n < 65536) : (Nat.toDigits 16 n).leftpad 4 '0' =
    [Nat.digitChar (n / 4096), Nat.digitChar (n / 256 % 16), Nat.digitChar (n / 16 % 16), Nat.digitChar (n % 16)] := by
  have hdiv : n / 16 / 16 = n / 256 := by omega
  have hdiv' : n / 16 / 16 / 16 = n / 4096 := by omega
  rcases (by omega : n < 16 ∨ 16 ≤ n ∧ n < 256 ∨ 256 ≤ n ∧ n < 4096 ∨ 4096 ≤ n) with hn | ⟨hle, hn⟩ | ⟨hle, hn⟩ | hle
  · have h₁ : n / 4096 = 0 := by omega
    have h₂ : n / 256 % 16 = 0 := by omega
    have h₃ : n / 16 % 16 = 0 := by omega
    have h₄ : n % 16 = n := by omega
    rw [Nat.toDigits_of_lt_base hn, h₁, h₂, h₃, h₄]
    rfl
  · have h₁ : n / 4096 = 0 := by omega
    have h₂ : n / 256 % 16 = 0 := by omega
    have h₃ : n / 16 % 16 = n / 16 := by omega
    rw [toDigits_hex_step hle, Nat.toDigits_of_lt_base (by omega), h₁, h₂, h₃]
    rfl
  · have h₁ : n / 4096 = 0 := by omega
    have h₂ : n / 256 % 16 = n / 256 := by omega
    rw [toDigits_hex_step (by omega), toDigits_hex_step (by omega), Nat.toDigits_of_lt_base (by omega), hdiv, h₁, h₂]
    rfl
  · rw [toDigits_hex_step (by omega), toDigits_hex_step (by omega), toDigits_hex_step (by omega),
      Nat.toDigits_of_lt_base (by omega), hdiv', hdiv]
    rfl

end Text

namespace Json

open Text

/-! ### Escapes -/

/-- The code of sixteen bits is written in four digits, from which it is read. -/
theorem escapeUnit_eq {n : Nat} (h : n < 65536) :
    ∃ a b c d, escapeUnit n = ['\\', 'u', a, b, c, d] ∧ unit? a b c d = some n := by
  refine ⟨_, _, _, _, congrArg (fun ds => '\\' :: 'u' :: ds) (leftpad_toDigits h), ?_⟩
  rw [unit?_digitChars (by omega) (by omega) (by omega) (by omega)]
  congr 1
  omega

/-- Characters are whole: their codes are no halves of pairs. -/
theorem toNat_bounds (c : Char) : c.toNat < 0xd800 ∨ 0xdfff < c.toNat ∧ c.toNat < 0x110000 := c.valid

theorem isHighHalf_toNat (c : Char) : isHighHalf c.toNat = false := by
  have hvalid := toNat_bounds c
  simp only [isHighHalf, Bool.and_eq_false_iff, decide_eq_false_iff_not]
  omega

theorem isHalf_toNat (c : Char) : isHalf c.toNat = false := by
  have hvalid := toNat_bounds c
  have hlow : isLowHalf c.toNat = false := by
    simp only [isLowHalf, Bool.and_eq_false_iff, decide_eq_false_iff_not]
    omega
  rw [isHalf, isHighHalf_toNat, hlow]
  rfl

theorem ofCode_toNat (c : Char) : ofCode c.toNat = c := by
  rw [ofCode, isHalf_toNat c, if_neg Bool.false_ne_true]
  exact Char.ofNat_toNat c

section Reading

variable {start position n m : Nat} {a b c d e f g h : Char} {rest : List Char}

theorem readChars_plain (hquote : c ≠ '"') (hslash : c ≠ '\\') (hcontrol : 32 ≤ c.toNat) :
    readChars start position (c :: rest) = consChar c (readChars start (position + 1) rest) := by
  rw [readChars, if_neg (by omega)]
  all_goals simp [hquote, hslash]

theorem readChars_escaped (hunit : c ≠ 'u') (hc : escaped? c = some d) :
    readChars start position ('\\' :: c :: rest) = consChar d (readChars start (position + 2) rest) := by
  rw [readChars]
  · rw [hc]
  all_goals simp [hunit]

/-- One unit that is no first half, before whatever follows. -/
theorem readChars_unit (start position : Nat) (hunit : unit? a b c d = some n) (hhigh : isHighHalf n = false) (hrest : rest ≠ []) :
    readChars start position ('\\' :: 'u' :: a :: b :: c :: d :: rest) =
      consChar (ofCode n) (readChars start (position + 6) rest) := by
  by_cases hnext : ∃ e f g h tail, rest = '\\' :: 'u' :: e :: f :: g :: h :: tail
  · obtain ⟨e, f, g, h, tail, rfl⟩ := hnext
    rw [readChars.eq_4, hunit]
    simp only [hhigh, Bool.false_and, Bool.false_eq_true, if_false]
  · cases rest with
    | nil => exact absurd rfl hrest
    | cons e rest =>
      rw [readChars.eq_5, hunit]
      intro e' f g h tail he htail
      subst he htail
      exact hnext ⟨_, _, _, _, _, rfl⟩

theorem readChars_pair (start position : Nat) (hhigh : unit? a b c d = some n) (hlow : unit? e f g h = some m)
    (hn : isHighHalf n = true) (hm : isLowHalf m = true) (hrest : rest ≠ []) :
    readChars start position ('\\' :: 'u' :: a :: b :: c :: d :: '\\' :: 'u' :: e :: f :: g :: h :: rest) =
      consChar (ofCode (joinHalves n m)) (readChars start (position + 12) rest) := by
  have hnonempty : rest.isEmpty = false := List.isEmpty_eq_false_iff.mpr hrest
  rw [readChars.eq_4, hhigh, hlow]
  simp only [hn, hm, hnonempty, Bool.not_false, Bool.and_self, if_true]

theorem readChars_escapeChar (c : Char) (hrest : rest ≠ []) :
    ∃ next, readChars start position (escapeChar c ++ rest) = consChar c (readChars start next rest) := by
  have hvalid := toNat_bounds c
  have hcode := ofCode_toNat c
  unfold escapeChar
  dsimp only
  split_ifs with hquote hnewline hreturn htab hback hfeed hplain hsmall
  · have hescaped : c ≠ 'u' ∧ escaped? c = some c := by
      simp only [Bool.or_eq_true, beq_iff_eq] at hquote
      rcases hquote with rfl | rfl
      · decide
      · decide
    exact ⟨_, readChars_escaped hescaped.1 hescaped.2⟩
  · rw [beq_iff_eq] at hnewline
    subst hnewline
    exact ⟨_, readChars_escaped (by decide) rfl⟩
  · rw [beq_iff_eq] at hreturn
    subst hreturn
    exact ⟨_, readChars_escaped (by decide) rfl⟩
  · rw [beq_iff_eq] at htab
    subst htab
    exact ⟨_, readChars_escaped (by decide) rfl⟩
  · have hc : c = '\x08' := Char.toNat_inj.mp (beq_iff_eq.mp hback)
    subst hc
    exact ⟨_, readChars_escaped (by decide) rfl⟩
  · have hc : c = '\x0c' := Char.toNat_inj.mp (beq_iff_eq.mp hfeed)
    subst hc
    exact ⟨_, readChars_escaped (by decide) rfl⟩
  · simp only [Bool.or_eq_true, beq_iff_eq, not_or] at hquote
    simp only [Bool.and_eq_true, decide_eq_true_eq] at hplain
    exact ⟨_, readChars_plain hquote.1 hquote.2 hplain.1⟩
  · obtain ⟨p, q, r, s, hunit, hread⟩ := escapeUnit_eq hsmall
    rw [hunit]
    have hstep := readChars_unit start position hread (isHighHalf_toNat c) hrest
    rw [hcode] at hstep
    exact ⟨_, hstep⟩
  · -- The two halves of a character beyond sixteen bits are read together.
    have hlarge : 0x10000 ≤ c.toNat := Nat.le_of_not_lt hsmall
    have hhalves : highHalf c.toNat < 65536 ∧ lowHalf c.toNat < 65536 := by
      unfold highHalf lowHalf
      omega
    obtain ⟨p, q, r, s, hhigh, hreadhigh⟩ := escapeUnit_eq hhalves.1
    obtain ⟨p', q', r', s', hlow, hreadlow⟩ := escapeUnit_eq hhalves.2
    rw [hhigh, hlow]
    have hstep := readChars_pair start position hreadhigh hreadlow
      (isHighHalf_highHalf _ (by omega)) (isLowHalf_lowHalf _) hrest
    rw [joinHalves_halves _ hlarge, hcode] at hstep
    exact ⟨_, hstep⟩

theorem readChars_escape (start : Nat) (rest cs : List Char) (position : Nat) :
    ∃ next, readChars start position (cs.flatMap escapeChar ++ '"' :: rest) = .ok (cs, ⟨rest, next⟩) := by
  induction cs generalizing position with
  | nil => exact ⟨_, readChars.eq_2 ..⟩
  | cons c cs ih =>
    have hne : cs.flatMap escapeChar ++ '"' :: rest ≠ [] := by simp
    obtain ⟨middle, hc⟩ := readChars_escapeChar c hne
    obtain ⟨next, hcs⟩ := ih middle
    refine ⟨next, ?_⟩
    rw [List.flatMap_cons, List.append_assoc, hc, hcs]
    rfl

/-- A quoted text is read as the text. -/
theorem readString_quote (s : String) (rest : List Char) (position : Nat) :
    ∃ next, readString ⟨s.toList.flatMap escapeChar ++ '"' :: rest, position⟩ = .ok (s, ⟨rest, next⟩) := by
  obtain ⟨next, hread⟩ := readChars_escape (position - 1) rest s.toList position
  refine ⟨next, ?_⟩
  rw [readString, hread]
  simp [Except.map, String.ofList_toList]

end Reading

end Json

end RuleTree
