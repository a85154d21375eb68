/-!
# Code units

Codes of characters in hexadecimal digits. A character beyond sixteen bits has a pair of codes, its two halves; one half alone
is no character. Main statement: joining the halves of such a character gives the character.
-/

namespace RuleTree.Text

def hexDigit? (c : Char) : Option Nat :=
  if '0' ≤ c ∧ c ≤ '9' then some (c.toNat - 48)
  else if 'a' ≤ c ∧ c ≤ 'f' then some (c.toNat - 87)
  else if 'A' ≤ c ∧ c ≤ 'F' then some (c.toNat - 55)
  else none

/-- The number that a row of hexadecimal digits writes. -/
def ofHexDigits? (cs : List Char) : Option Nat :=
  cs.foldlM (fun n c => (hexDigit? c).map (16 * n + ·)) 0

/-- Sixteen bits in four hexadecimal digits. -/
def unit? (a b c d : Char) : Option Nat := ofHexDigits? [a, b, c, d]

def isHighHalf (n : Nat) : Bool := 0xd800 ≤ n && n ≤ 0xdbff

def isLowHalf (n : Nat) : Bool := 0xdc00 ≤ n && n ≤ 0xdfff

def isHalf (n : Nat) : Bool := isHighHalf n || isLowHalf n

def highHalf (n : Nat) : Nat := 0xd800 + (n - 0x10000) / 1024

def lowHalf (n : Nat) : Nat := 0xdc00 + (n - 0x10000) % 1024

def joinHalves (high low : Nat) : Nat := 0x10000 + (high - 0xd800) * 1024 + (low - 0xdc00)

/-- The character of a code. Half of a pair is none; a private character on the last plane stands for it. -/
def ofCode (n : Nat) : Char := if isHalf n then Char.ofNat (0x100000 + n) else Char.ofNat n

theorem joinHalves_halves (n : Nat) (h : 0x10000 ≤ n) : joinHalves (highHalf n) (lowHalf n) = n := by
  unfold joinHalves highHalf lowHalf
  omega

theorem isHighHalf_highHalf (n : Nat) (h : n < 0x110000) : isHighHalf (highHalf n) = true := by
  have hn : (n - 0x10000) / 1024 ≤ 0x3ff := by omega
  simp only [isHighHalf, highHalf, Bool.and_eq_true]
  exact ⟨decide_eq_true (by omega), decide_eq_true (by omega)⟩

theorem isLowHalf_lowHalf (n : Nat) : isLowHalf (lowHalf n) = true := by
  have hn : (n - 0x10000) % 1024 < 1024 := Nat.mod_lt _ (by decide)
  simp only [isLowHalf, lowHalf, Bool.and_eq_true]
  exact ⟨decide_eq_true (by omega), decide_eq_true (by omega)⟩

end RuleTree.Text
