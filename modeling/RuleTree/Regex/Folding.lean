import RuleTree.Regex.Syntax
import RuleTree.Text.Alphanumeric
import RuleTree.Text.Blank
import RuleTree.Text.Case
import RuleTree.Text.Digit

/-!
# Characters in regular expressions

Which characters a literal, a set or a class stands for, with or without regard to case, in the wide alphabet or in ASCII.
-/

namespace RuleTree.Regex

/-! ### Small letters -/

/-- Small letters that share a capital letter. -/
def kinClasses : List (List Nat) := [
  [0x69, 0x131], [0x73, 0x17f], [0xb5, 0x3bc], [0x345, 0x3b9, 0x1fbe], [0x390, 0x1fd3], [0x3b0, 0x1fe3],
  [0x3b2, 0x3d0], [0x3b5, 0x3f5], [0x3b8, 0x3d1], [0x3ba, 0x3f0], [0x3c0, 0x3d6], [0x3c1, 0x3f1], [0x3c2, 0x3c3],
  [0x3c6, 0x3d5], [0x432, 0x1c80], [0x434, 0x1c81], [0x43e, 0x1c82], [0x441, 0x1c83], [0x442, 0x1c84, 0x1c85],
  [0x44a, 0x1c86], [0x463, 0x1c87], [0x1c88, 0xa64b], [0x1e61, 0x1e9b], [0xfb05, 0xfb06]]

/-- A small letter and those that share its capital. -/
def kin (c : Char) : List Char :=
  match kinClasses.find? (·.contains c.toNat) with
  | some codes => codes.map Char.ofNat
  | none => [c]

/-- The form of a character that comparisons look at. -/
def Flags.fold (f : Flags) (c : Char) : Char :=
  if !f.ignoreCase then c
  else if f.unicode then Text.lowerChar c
  else c.toLower

/-- The characters that are compared alike with a folded one. -/
def Flags.alike (f : Flags) (c : Char) : List Char := if f.ignoreCase && f.unicode then kin c else [c]

/-- The characters that fold to a given one. -/
def Flags.sources (f : Flags) (c : Char) : List Char :=
  if !f.ignoreCase then [c]
  else if f.unicode then Text.lowerSources c
  else [c, Char.ofNat (c.toNat - 32)].filter fun d => d.toLower == c

/-! ### Literals, classes and sets -/

def char? (code : Nat) : Option Char :=
  let c := Char.ofNat code
  if c.toNat = code then some c else none

/-- Whether a literal stands for a character. -/
def Flags.literalHolds (f : Flags) (code : Nat) (c : Char) : Bool :=
  match char? code with
  | none => false
  | some l => (f.alike (f.fold l)).contains (f.fold c)

def Category.holds (category : Category) (unicode : Bool) (c : Char) : Bool :=
  match category, unicode with
  | .digit, true => Text.isDecimal c
  | .digit, false => '0' ≤ c && c ≤ '9'
  | .space, true => Text.isBlank c
  | .space, false => c == ' ' || ('\t' ≤ c && c ≤ '\r')
  | .word, true => Text.isWordChar c
  | .word, false => Text.isAsciiWordChar c

/-- The first code point beyond the basic plane. -/
def basicPlane : Nat := 0x10000

/-- Whether a range stands for a character without regard to case. In the basic plane a character stands for all that are
compared alike with it; beyond it, the small and the capital form of a character are looked up. -/
def Flags.rangeHolds (f : Flags) (first last : Nat) (c : Char) : Bool :=
  let inside (d : Char) : Bool := first ≤ d.toNat && d.toNat ≤ last
  let folded := f.fold c
  (((f.alike folded).flatMap f.sources).any fun d => d.toNat < basicPlane && inside d) ||
    (basicPlane ≤ last && (inside folded || inside (Text.upperChar folded)))

def SetItem.holds (f : Flags) (c : Char) : SetItem → Bool
  | .literal code =>
    if f.ignoreCase && basicPlane ≤ code then (f.fold c).toNat == code else f.literalHolds code c
  | .range first last =>
    if f.ignoreCase then f.rangeHolds first last c else first ≤ c.toNat && c.toNat ≤ last
  | .category k negated => k.holds f.unicode (f.fold c) != negated

end RuleTree.Regex
