/-!
# Tokens of YAML

The tokens that a YAML text is made of, where a reader stands in the text, and what can be wrong with a text.
-/

namespace RuleTree.Yaml

/-- A token. Blocks are opened and closed by indentation, flows by brackets. -/
inductive Token
  | versionDirective (major : Nat)
  | tagDirective (handle lead : String)
  | otherDirective
  | documentStart
  | documentEnd
  | blockSequenceStart
  | blockMappingStart
  | blockEnd
  | flowSequenceStart
  | flowSequenceEnd
  | flowMappingStart
  | flowMappingEnd
  | blockEntry
  | flowEntry
  | key
  | value
  | alias (name : String)
  | anchor (name : String)
  | tag (handle : Option String) (suffix : String)
  | scalar (text : String) (plain : Bool)
  | streamEnd
deriving DecidableEq

/-- Which part of a date is out of range. -/
inductive DateFault
  | year (year : Nat)
  | month
  | day
  | hour
  | minute
  | second
  | offset (distance : Int)
deriving DecidableEq

/-- Why a text is not read. The places of malformed texts are not told. A text may also write a value that holds itself; it
is none of the values here. -/
inductive Fault
  | malformed
  | recursive
  | date (fault : DateFault)
  | tooManyDigits (digits : Nat)
  | notInteger (base : Nat) (text : String)
  | notFloat (text : String)
  | notTruthValue (text : String)
  | noDigits
  | tooManyPlaces
  | notTimestamp
  | notText
  | codeTooLarge
  | codeOverflow
deriving DecidableEq

/-! ### Characters -/

def isBreak (c : Char) : Bool := c == '\n' || c == '\r' || c == '\x85' || c == '\u2028' || c == '\u2029'

def isSpaceOrTab (c : Char) : Bool := c == ' ' || c == '\t'

def isBlankOrBreak (c : Char) : Bool := isSpaceOrTab c || isBreak c

def isAllowed (c : Char) : Bool :=
  let n := c.toNat
  n == 9 || n == 10 || n == 13 || (32 ≤ n && n ≤ 126) || n == 0x85 || (0xa0 ≤ n && n ≤ 0xd7ff) ||
    (0xe000 ≤ n && n ≤ 0xfffd) || 0x10000 ≤ n

/-- Letters, digits and the signs of names. -/
def isNameChar (c : Char) : Bool :=
  ('0' ≤ c && c ≤ '9') || ('A' ≤ c && c ≤ 'Z') || ('a' ≤ c && c ≤ 'z') || c == '-' || c == '_'

/-- Whether a word ends before the next character. -/
def endsWord (next : Option Char) : Bool := next.all isBlankOrBreak

/-- Whether a line ends before the next character. -/
def endsLine (next : Option Char) : Bool := next.all isBreak

/-- Whether a part of a line ends before the next character; a tab is no end. -/
def endsPart (next : Option Char) : Bool := next.all fun c => c == ' ' || isBreak c

/-! ### Places -/

/-- What is left of a text, and how much of it and of its line lies behind. -/
structure Place where
  rest : List Char
  index : Nat := 0
  line : Nat := 0
  column : Nat := 0

namespace Place

/-- Goes past one character. A byte order mark takes no column. -/
def step (p : Place) : Place :=
  match p.rest with
  | [] => p
  | c :: rest =>
    let endsHere := c == '\n' || c == '\x85' || c == '\u2028' || c == '\u2029' || (c == '\r' && rest.head? != some '\n')
    { rest, index := p.index + 1,
      line := if endsHere then p.line + 1 else p.line,
      column := if endsHere then 0 else if c == '\ufeff' then p.column else p.column + 1 }

/-- Goes past some characters. -/
def advance (p : Place) : Nat → Place
  | 0 => p
  | n + 1 => p.step.advance n

def peek (p : Place) : Option Char := p.rest.head?

/-- The character after some others. -/
def peekAt (p : Place) (n : Nat) : Option Char := p.rest[n]?

/-- Whether three signs that separate documents stand here, and nothing else in their word. -/
def isSeparator (p : Place) : Bool :=
  (p.rest.take 3 == ['-', '-', '-'] || p.rest.take 3 == ['.', '.', '.']) && endsWord (p.peekAt 3)

end Place

end RuleTree.Yaml
