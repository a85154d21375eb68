import RuleTree.Text.Blank

/-!
# Decimal digits of every script

Each script writes its digits as ten characters in a row, from zero to nine.
-/

namespace RuleTree.Text

/-- The code points of the zeros. -/
def zeroDigits : List Nat := [
  0x30, 0x660, 0x6f0, 0x7c0, 0x966, 0x9e6, 0xa66, 0xae6, 0xb66, 0xbe6, 0xc66, 0xce6,
  0xd66, 0xde6, 0xe50, 0xed0, 0xf20, 0x1040, 0x1090, 0x17e0, 0x1810, 0x1946, 0x19d0, 0x1a80,
  0x1a90, 0x1b50, 0x1bb0, 0x1c40, 0x1c50, 0xa620, 0xa8d0, 0xa900, 0xa9d0, 0xa9f0, 0xaa50, 0xabf0,
  0xff10, 0x104a0, 0x10d30, 0x11066, 0x110f0, 0x11136, 0x111d0, 0x112f0, 0x11450, 0x114d0, 0x11650, 0x116c0,
  0x11730, 0x118e0, 0x11950, 0x11c50, 0x11d50, 0x11da0, 0x16a60, 0x16ac0, 0x16b50, 0x1d7ce, 0x1d7d8, 0x1d7e2,
  0x1d7ec, 0x1d7f6, 0x1e140, 0x1e2f0, 0x1e950, 0x1fbf0]

/-- The number a decimal digit of any script stands for. -/
def decimalDigit? (c : Char) : Option Nat :=
  let n := c.toNat
  if n < 128 then (if 48 ≤ n && n ≤ 57 then some (n - 48) else none)
  else (zeroDigits.find? fun z => z ≤ n && n ≤ z + 9).map (n - ·)

def isDecimal (c : Char) : Bool := (decimalDigit? c).isSome

/-- The natural that a row of digits of any scripts writes, if it is one. -/
def ofDecimalDigits? (cs : List Char) : Option Nat :=
  cs.foldlM (fun n c => (decimalDigit? c).map (10 * n + ·)) 0

/-- An integer as people type it: blanks around, a sign, single low lines between digits of any scripts. -/
def integer? (text : String) (maxDigits : Nat) : Option Int :=
  let (sign, body) := match strip text.toList with
    | '-' :: rest => ((-1 : Int), rest)
    | '+' :: rest => (1, rest)
    | other => (1, other)
  let groups := body.splitOn '_'
  if groups.any List.isEmpty then none
  else if maxDigits < groups.flatten.length then none
  else (ofDecimalDigits? groups.flatten).map fun n => sign * (n : Int)

theorem decimalDigit?_of_ascii (c : Char) (h₁ : 48 ≤ c.toNat) (h₂ : c.toNat ≤ 57) :
    decimalDigit? c = some (c.toNat - 48) := by
  have h : c.toNat < 128 := by omega
  unfold decimalDigit?
  simp only [h, h₁, h₂, if_true, decide_true, Bool.and_self]

end RuleTree.Text
