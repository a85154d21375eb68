import RuleTree.Yaml.Text

/-!
# Layout

The tokens of a text. Blocks are opened and closed by the columns that their entries stand in, and the sign of a key is put
in front of what proves to be one by the colon behind it. Behind a fault nothing is cut, but what stands in front of it counts.
-/

namespace RuleTree.Yaml

/-- A token that may prove to be a key: its number among the tokens, its place, and whether nothing else can stand there. -/
structure Candidate where
  number : Nat
  required : Bool
  index : Nat
  line : Nat
  column : Nat

/-- How far a text is cut into tokens. -/
structure Layout where
  place : Place
  /-- The columns of the open blocks, innermost first. -/
  blocks : List Nat := []
  /-- Whether a key may stand here. -/
  keyAllowed : Bool := true
  candidate : Option Candidate := none
  /-- The candidates around the open flows, innermost first. -/
  outer : List (Option Candidate) := []
  tokens : Array Token := #[]

namespace Layout

def inFlow (s : Layout) : Bool := !s.outer.isEmpty

def add (s : Layout) (t : Token) : Layout := { s with tokens := s.tokens.push t }

def scan {α : Type} (s : Layout) (part : Scan α) : Except Fault (α × Layout) :=
  (part.run s.place).map fun (a, place) => (a, { s with place })

def advance (s : Layout) (n : Nat) : Layout := { s with place := s.place.advance n }

/-! ### Blocks -/

/-- Whether a block can be opened at a column: it is indented more than those around it. -/
def canOpen (s : Layout) (column : Nat) : Bool := s.blocks.head?.all (· < column)

/-- Opens a block at a column, if it can be, with its token at a place among the tokens. -/
def openBlock (s : Layout) (column number : Nat) (t : Token) : Layout :=
  if s.canOpen column then
    { s with blocks := column :: s.blocks, tokens := s.tokens.insertIdxIfInBounds number t }
  else s

/-- Opens a block with an entry that stands here. -/
def openHere (s : Layout) (t : Token) : Except Fault Layout :=
  if s.inFlow then .ok s
  else if s.keyAllowed then .ok (s.openBlock s.place.column s.tokens.size t)
  else .error .malformed

/-- The blocks that are indented more than a column; without a column, all of them. -/
def deeper (blocks : List Nat) (column : Option Nat) : List Nat :=
  blocks.takeWhile fun c => column.all (· < c)

/-- Closes the blocks that are indented more than a column. Inside a flow none is closed. -/
def closeBlocks (s : Layout) (column : Option Nat) : Layout :=
  if s.inFlow then s
  else
    let closed := deeper s.blocks column
    { s with
      blocks := s.blocks.drop closed.length,
      tokens := s.tokens ++ (closed.map fun _ => Token.blockEnd) }

/-! ### Keys -/

/-- Gives up the candidate. One that is required cannot be given up. -/
def dropCandidate (s : Layout) : Except Fault Layout :=
  if s.candidate.any Candidate.required then .error .malformed else .ok { s with candidate := none }

/-- Takes the next token as a candidate, if a key may stand here. -/
def saveCandidate (s : Layout) : Except Fault Layout :=
  if s.keyAllowed then do
    let s ← s.dropCandidate
    let required := !s.inFlow && s.blocks.head? == some s.place.column
    let p := s.place
    return { s with candidate := some ⟨s.tokens.size, required, p.index, p.line, p.column⟩ }
  else .ok s

/-- A key and its colon stand in one line, with at most 1024 characters between their beginnings. -/
def isStale (p : Place) (c : Candidate) : Bool := c.line != p.line || 1024 < p.index - c.index

/-- Gives up the candidates that are out of reach. -/
def dropStale (s : Layout) : Except Fault Layout :=
  let fresh := Option.filter fun c => !isStale s.place c
  if (s.candidate :: s.outer).any fun c => c.any fun c => c.required && isStale s.place c then .error .malformed
  else .ok { s with candidate := fresh s.candidate, outer := s.outer.map fresh }

/-- The sign between a key and its value, which makes a key of the candidate. -/
def value (s : Layout) : Except Fault Layout :=
  match s.candidate with
  | some c =>
    let s := { s with
      candidate := none, keyAllowed := false, tokens := s.tokens.insertIdxIfInBounds c.number .key }
    let s := if s.inFlow then s else s.openBlock c.column c.number .blockMappingStart
    .ok ((s.add .value).advance 1)
  | none => do
    let s ← s.openHere .blockMappingStart
    return ({ s with keyAllowed := !s.inFlow }.add .value).advance 1

/-! ### Tokens -/

/-- Goes to the next token. In a block a key may stand at the start of a line. -/
def toNext (s : Layout) : Except Fault Layout := do
  let (lineEnded, s) ← s.scan do Scan.gap (← Scan.rounds)
  let s := if lineEnded && !s.inFlow then { s with keyAllowed := true } else s
  return (← s.dropStale).closeBlocks (some s.place.column)

def apart (s : Layout) (part : Scan Token) : Except Fault Layout := do
  let s ← (s.closeBlocks none).dropCandidate
  let (t, s) ← s.scan part
  return { s with keyAllowed := false }.add t

def maybeKey (s : Layout) (part : Scan Token) : Except Fault Layout := do
  let s ← s.saveCandidate
  let (t, s) ← s.scan part
  return { s with keyAllowed := false }.add t

/-- A plain text; a key may follow if a line ended behind it. -/
def plain (s : Layout) : Except Fault Layout := do
  let s ← s.saveCandidate
  let least := (s.blocks.head?.map (· + 1)).getD 0
  let ((t, lineEnded), s) ← s.scan (Scan.plain s.inFlow least)
  return { s with keyAllowed := lineEnded }.add t

/-- A block text; a key may follow. -/
def block (s : Layout) (folded : Bool) : Except Fault Layout := do
  let s ← s.dropCandidate
  let least := (s.blocks.head?.map (· + 1)).getD 0
  let (t, s) ← s.scan (Scan.block folded least)
  return { s with keyAllowed := true }.add t

def openFlow (s : Layout) (t : Token) : Except Fault Layout := do
  let s ← s.saveCandidate
  return ({ s with outer := s.candidate :: s.outer, candidate := none, keyAllowed := true }.add t).advance 1

def closeFlow (s : Layout) (t : Token) : Except Fault Layout := do
  let s ← s.dropCandidate
  match s.outer with
  | [] => .error .malformed
  | c :: outer => return ({ s with candidate := c, outer, keyAllowed := false }.add t).advance 1

/-- The sign between the elements of a flow. -/
def flowEntry (s : Layout) : Except Fault Layout := do
  let s ← s.dropCandidate
  return ({ s with keyAllowed := true }.add .flowEntry).advance 1

/-- The sign of an element of a block. -/
def blockEntry (s : Layout) : Except Fault Layout := do
  let s ← (← s.openHere .blockSequenceStart).dropCandidate
  return ({ s with keyAllowed := true }.add .blockEntry).advance 1

def key (s : Layout) : Except Fault Layout := do
  let s ← (← s.openHere .blockMappingStart).dropCandidate
  return ({ s with keyAllowed := !s.inFlow }.add .key).advance 1

def finish (s : Layout) : Except Fault Layout :=
  (s.closeBlocks none).dropCandidate.map (·.add .streamEnd)

def startsPlain (flow : Bool) (c : Char) (next : Option Char) : Bool :=
  !(isBlankOrBreak c || "-?:,[]\x7b\x7d#&*!|>'\"%@`".toList.contains c) ||
    (!endsWord next && (c == '-' || (!flow && (c == '?' || c == ':'))))

def token (s : Layout) (c : Char) : Except Fault Layout :=
  let wordEnds := endsWord (s.place.peekAt 1)
  if s.place.column = 0 ∧ c = '%' then s.apart Scan.directive
  else if s.place.column = 0 ∧ s.place.isSeparator then
    s.apart do
      Scan.advance 3
      return if c = '-' then .documentStart else .documentEnd
  else if c = '[' then s.openFlow .flowSequenceStart
  else if c = '\x7b' then s.openFlow .flowMappingStart
  else if c = ']' then s.closeFlow .flowSequenceEnd
  else if c = '\x7d' then s.closeFlow .flowMappingEnd
  else if c = ',' then s.flowEntry
  else if c = '-' ∧ wordEnds then s.blockEntry
  else if c = '?' ∧ (s.inFlow ∨ wordEnds) then s.key
  else if c = ':' ∧ (s.inFlow ∨ wordEnds) then s.value
  else if c = '*' then s.maybeKey (Token.alias <$> Scan.anchorName)
  else if c = '&' then s.maybeKey (Token.anchor <$> Scan.anchorName)
  else if c = '!' then s.maybeKey Scan.tag
  else if (c = '|' ∨ c = '>') ∧ !s.inFlow then s.block (c = '>')
  else if c = '\'' ∨ c = '"' then s.maybeKey (Scan.quoted c)
  else if startsPlain s.inFlow c (s.place.peekAt 1) then s.plain
  else .error .malformed

/-- The tokens that nothing behind them can change: those in front of the first candidate within reach. -/
def settled (s : Layout) : List Token :=
  let candidates := (s.candidate :: s.outer).filterMap (Option.filter fun c => !isStale s.place c)
  match (candidates.map Candidate.number).min? with
  | some number => s.tokens.toList.take number
  | none => s.tokens.toList

/-- All tokens from here, or those in front of a fault, and the fault. Every round takes a character at least. -/
def tokensFrom : Nat → Layout → Except (List Token × Fault) (List Token)
  | 0, s => .error (s.settled, .malformed)
  | fuel + 1, s => do
    let here ← s.toNext.mapError (s.settled, ·)
    match here.place.peek with
    | some c => tokensFrom fuel (← (here.token c).mapError (s.settled, ·))
    | none => return (← here.finish.mapError (s.settled, ·)).tokens.toList

end Layout

/-- The tokens of a text, or those that stand in front of its first fault, and the fault. A byte order mark may stand in
front. -/
def Token.ofText (text : List Char) : Except (List Token × Fault) (List Token) :=
  if text.all isAllowed then
    let start : Place := { rest := text }
    let place := if text.head? = some '\ufeff' then start.step else start
    Layout.tokensFrom (text.length + 1) { place }
  else .error ([], .malformed)

end RuleTree.Yaml
