import RuleTree.Number.Decimal
import RuleTree.Text.CodeUnit
import RuleTree.Yaml.Token

/-!
# Texts in YAML

Reading what a token holds: names, tags, directives, and plain, quoted and block texts.
-/

namespace RuleTree.Yaml

abbrev Scan := StateT Place (Except Fault)

namespace Scan

/-! ### Steps -/

def malformed {α : Type} : Scan α := throw .malformed

def advance (n : Nat) : Scan Unit := modify fun p => p.advance n

def peek : Scan (Option Char) := return (← get).peek

/-- Goes past the characters of a sort and returns them. -/
def takeWhile (ok : Char → Bool) : Scan (List Char) := do
  let found := (← get).rest.takeWhile ok
  advance found.length
  return found

def skipSpaces : Scan Unit := do
  let _ ← takeWhile (· == ' ')

/-- Goes past a line break, if one is next, and returns what it counts as. -/
def lineBreak : Scan (List Char) := do
  match (← get).rest with
  | '\r' :: '\n' :: _ =>
    advance 2
    return ['\n']
  | c :: _ =>
    if c == '\r' || c == '\n' || c == '\x85' then
      advance 1
      return ['\n']
    else if c == '\u2028' || c == '\u2029' then
      advance 1
      return [c]
    else return []
  | [] => return []

/-- How many rounds a loop over the text ahead can take. -/
def rounds : Scan Nat := return (← get).rest.length + 1

def skipComment : Scan Unit := do
  if (← peek) == some '#' then
    let _ ← takeWhile (!isBreak ·)

def gap : Nat → Scan Bool
  | 0 => return false
  | fuel + 1 => do
    skipSpaces
    skipComment
    let ending ← lineBreak
    if ending.isEmpty then return false
    else
      let _ ← gap fuel
      return true

/-- The rest of a line that may hold a comment only. -/
def restOfLine : Scan Unit := do
  skipSpaces
  skipComment
  if endsLine (← peek) then
    let _ ← lineBreak
  else malformed

/-! ### Names, tags and directives -/

def anchorName : Scan String := do
  advance 1
  let name ← takeWhile isNameChar
  if name.isEmpty then malformed
  else if (← peek).all fun c => isBlankOrBreak c || "?:,]\x7d%@".toList.contains c || c.toNat == 96 then
    return String.ofList name
  else malformed

def isUriChar (c : Char) : Bool := isNameChar c || ";/?:@&=+$,.!~*'()[]".toList.contains c

/-- A number of exactly so many hexadecimal digits. -/
def hexNumber (count : Nat) : Scan Nat := do
  let digits := (← get).rest.take count
  match Text.ofHexDigits? digits with
  | some n =>
    if digits.length = count then
      advance count
      return n
    else malformed
  | none => malformed

/-- The bytes of a row of escapes. -/
def uriBytes : Nat → Scan (List UInt8)
  | 0 => return []
  | fuel + 1 => do
    if (← peek) == some '%' then
      advance 1
      let byte ← hexNumber 2
      return UInt8.ofNat byte :: (← uriBytes fuel)
    else return []

/-- The parts of a tag: plain characters and escaped ones. -/
def uriParts : Nat → Scan (List Char)
  | 0 => return []
  | fuel + 1 => do
    match ← peek with
    | some '%' =>
      let bytes ← uriBytes (← rounds)
      match String.fromUTF8? ⟨bytes.toArray⟩ with
      | some s => return s.toList ++ (← uriParts fuel)
      | none => malformed
    | some c =>
      if isUriChar c then
        advance 1
        return c :: (← uriParts fuel)
      else return []
    | none => return []

def uri : Scan String := do
  let parts ← uriParts (← rounds)
  if parts.isEmpty then malformed else return String.ofList parts

/-- The handle of a tag: one sign, or a name between two. -/
def tagHandle : Scan String := do
  if (← peek) ≠ some '!' then malformed
  else
    advance 1
    if (← peek) == some ' ' then return "!"
    else
      let name ← takeWhile isNameChar
      if (← peek) == some '!' then
        advance 1
        return String.ofList ('!' :: name ++ ['!'])
      else malformed

/-- Whether the word after the sign of a tag holds a second sign. -/
def hasHandle (p : Place) : Bool :=
  ((p.rest.drop 1).takeWhile fun c => !(c == ' ' || isBreak c)).contains '!'

/-- The token of a tag: with its handle, in full between angles, or the sign alone. -/
def tag : Scan Token := do
  let p ← get
  let token ← match p.peekAt 1 with
    | some '<' => do
      advance 2
      let suffix ← uri
      if (← peek) = some '>' then
        advance 1
        pure (Token.tag none suffix)
      else malformed
    | next =>
      if endsWord next then do
        advance 1
        pure (Token.tag none "!")
      else if hasHandle p then do
        let handle ← tagHandle
        pure (Token.tag (some handle) (← uri))
      else do
        advance 1
        pure (Token.tag (some "!") (← uri))
  if endsPart (← peek) then return token else malformed

def versionNumber : Scan Nat := do
  let digits ← takeWhile Decimal.isDigit
  if digits.isEmpty then malformed
  else if Decimal.maxDigits < digits.length then throw (.tooManyDigits digits.length)
  else return Decimal.ofDigits digits

/-- The token of a directive. -/
def directive : Scan Token := do
  advance 1
  let name ← takeWhile isNameChar
  if name.isEmpty || !endsPart (← peek) then malformed
  else
    let token ← if name == "YAML".toList then do
        skipSpaces
        let major ← versionNumber
        if (← peek) = some '.' then
          advance 1
          let _ ← versionNumber
          if endsPart (← peek) then pure (Token.versionDirective major) else malformed
        else malformed
      else if name == "TAG".toList then do
        skipSpaces
        let handle ← tagHandle
        if (← peek) = some ' ' then
          skipSpaces
          let lead ← uri
          if endsPart (← peek) then pure (Token.tagDirective handle lead) else malformed
        else malformed
      else do
        let _ ← takeWhile (!isBreak ·)
        pure Token.otherDirective
    restOfLine
    return token

/-! ### Quoted texts -/

/-- The line breaks of a quoted text, with the blanks around them skipped. -/
def quotedBreaks : Nat → Scan (List Char)
  | 0 => malformed
  | fuel + 1 => do
    if (← get).isSeparator then malformed
    else
      let _ ← takeWhile isSpaceOrTab
      if (← peek).any isBreak then
        let b ← lineBreak
        return b ++ (← quotedBreaks fuel)
      else return []

/-- Blanks in a quoted text. Around line breaks they vanish; a single line break counts as a space. -/
def quotedSpaces : Scan (List Char) := do
  let blanks ← takeWhile isSpaceOrTab
  match ← peek with
  | none => malformed
  | some c =>
    if isBreak c then
      let first ← lineBreak
      let more ← quotedBreaks (← rounds)
      if first ≠ ['\n'] then return first ++ more
      else if more.isEmpty then return [' ']
      else return more
    else return blanks

/-- What a letter after a backslash stands for. -/
def escaped? : Char → Option Char
  | '0' => some '\x00'
  | 'a' => some '\x07'
  | 'b' => some '\x08'
  | 't' => some '\t'
  | '\t' => some '\t'
  | 'n' => some '\n'
  | 'v' => some '\x0b'
  | 'f' => some '\x0c'
  | 'r' => some '\r'
  | 'e' => some '\x1b'
  | ' ' => some ' '
  | '"' => some '"'
  | '\\' => some '\\'
  | '/' => some '/'
  | 'N' => some '\x85'
  | '_' => some '\xa0'
  | 'L' => some '\u2028'
  | 'P' => some '\u2029'
  | _ => none

/-- How many hexadecimal digits follow a letter. -/
def codeLength? : Char → Option Nat
  | 'x' => some 2
  | 'u' => some 4
  | 'U' => some 8
  | _ => none

/-- The character of a code in hexadecimal digits. The two halves of a pair are read one by one. Codes of more than 31 bits
are no numbers of characters at all. -/
def codeChar (count : Nat) : Scan Char := do
  let code ← hexNumber count
  if 0x80000000 ≤ code then throw .codeOverflow
  else if 0x110000 ≤ code then throw .codeTooLarge
  else return Text.ofCode code

/-- What an escape stands for, after its backslash. -/
def escape : Scan (List Char) := do
  match ← peek with
  | none => malformed
  | some c =>
    if let some d := escaped? c then
      advance 1
      return [d]
    else if let some count := codeLength? c then
      advance 1
      return [← codeChar count]
    else if isBreak c then
      let _ ← lineBreak
      quotedBreaks (← rounds)
    else malformed

/-- The text up to the closing quote. -/
def quotedParts (quote : Char) : Nat → Scan (List Char)
  | 0 => malformed
  | fuel + 1 => do
    match (← get).rest with
    | [] => malformed
    | c :: rest =>
      if c == quote then
        if quote == '\'' && rest.head? == some '\'' then
          advance 2
          return '\'' :: (← quotedParts quote fuel)
        else
          advance 1
          return []
      else if quote == '"' && c == '\\' then
        advance 1
        let part ← escape
        return part ++ (← quotedParts quote fuel)
      else if isBlankOrBreak c then
        let part ← quotedSpaces
        return part ++ (← quotedParts quote fuel)
      else
        advance 1
        return c :: (← quotedParts quote fuel)

def quoted (quote : Char) : Scan Token := do
  advance 1
  let text ← quotedParts quote (← rounds)
  return .scalar (String.ofList text) false

/-! ### Block texts -/

/-- What becomes of the line breaks at the end of a block: all go, one stays, all stay. -/
inductive Chomp
  | strip
  | clip
  | keep
deriving DecidableEq

def chomp? : Scan (Option Chomp) := do
  match ← peek with
  | some '+' =>
    advance 1
    return some .keep
  | some '-' =>
    advance 1
    return some .strip
  | _ => return none

def increment? : Scan (Option Nat) := do
  match ← peek with
  | some c =>
    if Decimal.isDigit c then
      if c == '0' then malformed
      else
        advance 1
        return some (Decimal.digitValue c)
    else return none
  | none => return none

/-- The signs after the sign of a block, in either order. -/
def blockHeader : Scan (Chomp × Option Nat) := do
  match ← chomp? with
  | some c => return (c, ← increment?)
  | none =>
    match ← increment? with
    | some n => return ((← chomp?).getD .clip, some n)
    | none => return (.clip, none)

/-- The empty lines at the start of a block, and the deepest indentation met. -/
def blockIndentation : Nat → Nat → Scan (List Char × Nat)
  | 0, deepest => return ([], deepest)
  | fuel + 1, deepest => do
    match ← peek with
    | some ' ' =>
      advance 1
      blockIndentation fuel (max deepest (← get).column)
    | some c =>
      if isBreak c then
        let b ← lineBreak
        let (more, deepest) ← blockIndentation fuel deepest
        return (b ++ more, deepest)
      else return ([], deepest)
    | none => return ([], deepest)

/-- Goes to a column, through spaces. -/
def indentTo (indent : Nat) : Scan Unit := do
  let p ← get
  let spaces := (p.rest.take (indent - p.column)).takeWhile (· == ' ')
  advance spaces.length

/-- The empty lines inside a block. -/
def blockBreaks (indent : Nat) : Nat → Scan (List Char)
  | 0 => return []
  | fuel + 1 => do
    indentTo indent
    if (← peek).any isBreak then
      let b ← lineBreak
      return b ++ (← blockBreaks indent fuel)
    else return []

/-- The lines of a block, after some empty ones: the text, its last line break, and the empty lines behind it. -/
def blockLines (folded : Bool) (indent : Nat) : Nat → List Char → Scan (List Char × List Char × List Char)
  | 0, breaks => return ([], [], breaks)
  | fuel + 1, breaks => do
    let p ← get
    if p.column ≠ indent || p.peek.isNone then return ([], [], breaks)
    else
      let startsText := !p.peek.any isSpaceOrTab
      let line ← takeWhile (!isBreak ·)
      let ending ← lineBreak
      let after ← blockBreaks indent (← rounds)
      let q ← get
      if q.column = indent && q.peek.isSome then
        let joint :=
          if folded && ending == ['\n'] && startsText && !q.peek.any isSpaceOrTab then
            if after.isEmpty then [' '] else []
          else ending
        let (text, lastEnding, tail) ← blockLines folded indent fuel after
        return (breaks ++ line ++ joint ++ text, lastEnding, tail)
      else return (breaks ++ line, ending, after)

/-- The token of a block text. It is indented by some columns at least. -/
def block (folded : Bool) (least : Nat) : Scan Token := do
  advance 1
  let (chomp, increment) ← blockHeader
  if !endsPart (← peek) then malformed
  else
    restOfLine
    let least := max 1 least
    let (indent, breaks) ← match increment with
      | none => do
        let (breaks, deepest) ← blockIndentation (← rounds) 0
        pure (max least deepest, breaks)
      | some n => do
        let indent := least + n - 1
        pure (indent, ← blockBreaks indent (← rounds))
    let (text, ending, tail) ← blockLines folded indent (← rounds) breaks
    let chars := match chomp with
      | .strip => text
      | .clip => text ++ ending
      | .keep => text ++ ending ++ tail
    return .scalar (String.ofList chars) false

/-! ### Plain texts -/

/-- The characters that end a plain text inside flows. -/
def isFlowSign (c : Char) : Bool := c == ',' || c == '[' || c == ']' || c == '\x7b' || c == '\x7d'

/-- The plain characters at the front of a text. -/
def plainChars (flow : Bool) : List Char → List Char
  | [] => []
  | c :: rest =>
    if isBlankOrBreak c then []
    else if c == ':' && rest.head?.all fun d => isBlankOrBreak d || (flow && isFlowSign d) then []
    else if flow && (isFlowSign c || c == '?') then []
    else c :: plainChars flow rest

/-- The line breaks and spaces after a line break; nothing if the document ends among them. -/
def plainBreaks : Nat → Scan (Option (List Char))
  | 0 => return some []
  | fuel + 1 => do
    match ← peek with
    | some ' ' =>
      advance 1
      plainBreaks fuel
    | some c =>
      if isBreak c then
        let b ← lineBreak
        if (← get).isSeparator then return none
        else return (← plainBreaks fuel).map (b ++ ·)
      else return some []
    | none => return some []

/-- What stands between two pieces of a plain text, if the text can go on behind it, and whether a line ended. -/
def plainSpaces : Scan (Option (List Char) × Bool) := do
  let blanks ← takeWhile (· == ' ')
  if (← peek).any isBreak then
    let first ← lineBreak
    if (← get).isSeparator then return (none, true)
    else
      match ← plainBreaks (← rounds) with
      | none => return (none, true)
      | some more =>
        if first ≠ ['\n'] then return (some (first ++ more), true)
        else if more.isEmpty then return (some [' '], true)
        else return (some more, true)
  else return (some blanks, false)

/-- The pieces of a plain text, after what stands between them, and whether a line ended last. -/
def plainParts (flow : Bool) (least : Nat) : Nat → List Char → Bool → Scan (List Char × Bool)
  | 0, _, lineEnded => return ([], lineEnded)
  | fuel + 1, between, lineEnded => do
    let p ← get
    let piece := if p.peek == some '#' then [] else plainChars flow p.rest
    if piece.isEmpty then return ([], lineEnded)
    else
      advance piece.length
      let (spaces, lineEnded) ← plainSpaces
      let q ← get
      let last := spaces.all List.isEmpty || q.peek == some '#' || (!flow && q.column < least)
      if last then return (between ++ piece, lineEnded)
      else
        let (more, lineEnded) ← plainParts flow least fuel (spaces.getD []) lineEnded
        return (between ++ piece ++ more, lineEnded)

/-- The token of a plain text, and whether a line ended behind it. Outside flows its lines are indented by some columns at
least. -/
def plain (flow : Bool) (least : Nat) : Scan (Token × Bool) := do
  let (text, lineEnded) ← plainParts flow least (← rounds) [] false
  return (.scalar (String.ofList text) true, lineEnded)

end Scan

end RuleTree.Yaml
