import RuleTree.Regex.Fault
import RuleTree.Text.CharacterName
import RuleTree.Text.Digit
import RuleTree.Text.Name

/-!
# Reading regular expressions

The syntax tree of a text, or the first fault in it. Reading goes from left to right by tokens: a backslash and the
character after it are one token, any other character is one by itself. A backslash at the very end is a fault as soon as
everything before it has been read.
-/

namespace RuleTree.Regex

inductive Token
  | plain (c : Char)
  | escape (c : Char)
deriving DecidableEq

def Token.text : Token → List Char
  | .plain c => [c]
  | .escape c => ['\\', c]

/-- What is known while an expression is read. -/
structure Progress where
  /-- The text ahead and how much lies behind. -/
  rest : List Char
  position : Nat
  /-- The switches of the whole expression. -/
  flags : Flags
  /-- The numbers of the named groups. -/
  names : List (String × Nat) := []
  /-- The widths of the groups, from number one on, as far as they are closed. -/
  widths : List (Option Width) := []
  /-- How many groups, the whole counted in, were open or closed when the outermost look behind began. -/
  beforeLookbehind : Option Nat := none
  /-- Group numbers that conditions ask for, and where each is first asked for. -/
  asked : List (Nat × Nat) := []

namespace Progress

def nextGroup (p : Progress) : Nat := p.widths.length + 1

def isClosed (p : Progress) (group : Nat) : Bool :=
  group ≠ 0 && (p.widths[group - 1]?.any Option.isSome)

def width (p : Progress) (group : Nat) : Width :=
  match p.widths[group - 1]? with
  | some (some w) => w
  | _ => ⟨0, 0⟩

end Progress

abbrev Reading := StateT Progress (Except Fault)

namespace Reading

/-! ### Faults -/

def failAt {α : Type} (reason : Reason) (position : Nat) : Reading α :=
  throw (.misread reason (some position))

def fail {α : Type} (reason : Reason) (back : Nat) : Reading α := do
  failAt reason ((← get).position - back)

/-! ### Tokens -/

/-- The first token of a text. -/
def firstToken? : List Char → Option Token
  | [] => none
  | '\\' :: c :: _ => some (.escape c)
  | c :: _ => some (.plain c)

/-- Goes on some characters; a lone backslash ahead is a fault. -/
def advance (count : Nat) : Reading Unit := do
  let p ← get
  let rest := p.rest.drop count
  let position := p.position + count
  if rest == ['\\'] then failAt .unfinishedEscape position
  else set { p with rest, position }

def peek : Reading (Option Token) := do
  return firstToken? (← get).rest

def next : Reading (Option Token) := do
  let token ← peek
  advance ((token.map Token.text).getD []).length
  return token

/-- Goes past a character if it is next. -/
def accept (c : Char) : Reading Bool := do
  if (← peek) = some (.plain c) then
    advance 1
    return true
  else return false

/-- Goes past the characters of a kind, at most so many. -/
def acceptWhile (limit : Nat) (ok : Char → Bool) : Reading (List Char) := do
  let found := ((← get).rest.take limit).takeWhile ok
  advance found.length
  return found

/-- Splits a text before the first token that is the given character, or before a lone backslash at its end. -/
def splitBefore (stop : Char) : List Char → List Char × List Char
  | [] => ([], [])
  | ['\\'] => ([], ['\\'])
  | '\\' :: c :: rest =>
    let (before, after) := splitBefore stop rest
    ('\\' :: c :: before, after)
  | c :: rest =>
    if c = stop then ([], c :: rest)
    else
      let (before, after) := splitBefore stop rest
      (c :: before, after)

/-- Goes past everything up to a character, and past it if it is there. -/
def skipPast (stop : Char) : Reading Bool := do
  let (before, after) := splitBefore stop (← get).rest
  advance before.length
  if after.isEmpty then return false
  else
    advance 1
    return true

def readUntil (stop : Char) (what : String) : Reading String := do
  let (before, _) := splitBefore stop (← get).rest
  if ← skipPast stop then
    if before.isEmpty then fail (.missing what) 1
    else return String.ofList before
  else if before.isEmpty then fail (.missing what) 0
  else fail (.unterminatedName stop) before.length

/-! ### Escapes -/

def isOctalDigit (c : Char) : Bool := '0' ≤ c && c ≤ '7'

def isHexDigit (c : Char) : Bool :=
  Decimal.isDigit c || ('a' ≤ c && c ≤ 'f') || ('A' ≤ c && c ≤ 'F')

def hexValue (c : Char) : Nat :=
  if Decimal.isDigit c then c.toNat - 48 else c.toLower.toNat - 87

def octalNumber (cs : List Char) : Nat := cs.foldl (fun n c => 8 * n + (c.toNat - 48)) 0

def hexNumber (cs : List Char) : Nat := cs.foldl (fun n c => 16 * n + hexValue c) 0

def isAsciiLetter (c : Char) : Bool := ('a' ≤ c && c ≤ 'z') || ('A' ≤ c && c ≤ 'Z')

/-- The control characters that a letter stands for. -/
def control? : Char → Option Nat
  | 'a' => some 7
  | 'b' => some 8
  | 'f' => some 12
  | 'n' => some 10
  | 'r' => some 13
  | 't' => some 9
  | 'v' => some 11
  | '\\' => some 92
  | _ => none

/-- The classes of characters that a letter stands for; a capital stands for all others. -/
def category? : Char → Option SetItem
  | 'd' => some (.category .digit false)
  | 'D' => some (.category .digit true)
  | 's' => some (.category .space false)
  | 'S' => some (.category .space true)
  | 'w' => some (.category .word false)
  | 'W' => some (.category .word true)
  | _ => none

/-- The places that a letter stands for. -/
def anchor? : Char → Option Anchor
  | 'A' => some .textStart
  | 'b' => some .boundary
  | 'B' => some .noBoundary
  | 'Z' => some .textEnd
  | _ => none

/-- A code point in exactly so many hexadecimal digits. -/
def readHex (letter : Char) (count : Nat) : Reading Nat := do
  let digits ← acceptWhile count isHexDigit
  let escape := '\\' :: letter :: digits
  let code := hexNumber digits
  if digits.length ≠ count then fail (.incompleteEscape escape) escape.length
  else if code < 0x110000 then return code
  else if code < 0x80000000 then fail (.badEscape escape) escape.length
  else throw .codeTooLarge

variable [Text.CharacterNames]

def readNamed : Reading Nat := do
  if ← accept '\x7b' then
    let name ← readUntil '\x7d' "character name"
    match Text.ofCharacterName? name with
    | some code => return code
    | none => fail (.undefinedCharacter name) (name.length + 4)
  else fail .missingBrace 0

/-- A character that is written by its number or its name, or stands for itself. -/
def readCharacter (c : Char) : Reading Nat := do
  match c with
  | 'x' => readHex 'x' 2
  | 'u' => readHex 'u' 4
  | 'U' => readHex 'U' 8
  | 'N' => readNamed
  | _ =>
    if isAsciiLetter c || Decimal.isDigit c then fail (.badEscape ['\\', c]) 2
    else return c.toNat

def checkOctal (digits : List Char) : Reading Nat := do
  let code := octalNumber digits
  if 255 < code then fail (.octalTooLarge ('\\' :: digits)) (digits.length + 1)
  else return code

/-- What an escape means inside a set. -/
def readSetEscape (c : Char) : Reading SetItem := do
  if let some code := control? c then return .literal code
  else if let some item := category? c then return item
  else if isOctalDigit c then
    let digits ← acceptWhile 2 isOctalDigit
    return .literal (← checkOctal (c :: digits))
  else return .literal (← readCharacter c)

/-- Groups behind which a look behind began must be closed before it. -/
def checkLookbehind (group : Nat) : Reading Unit := do
  let p ← get
  match p.beforeLookbehind with
  | none => return
  | some before =>
    if !p.isClosed group then fail .openGroup 0
    else if before ≤ group then fail .lookbehindGroup 0
    else return

def readReference (digits : List Char) : Reading Node := do
  let p ← get
  let group := Decimal.ofDigits digits
  if p.nextGroup ≤ group then fail (.invalidGroup group) digits.length
  else if !p.isClosed group then fail .openGroup (digits.length + 1)
  else
    checkLookbehind group
    return .backreference group

/-- What an escape of a digit means: three octal digits are a character, and one or two digits else a group. -/
def readDigitEscape (c : Char) : Reading Node := do
  if c = '0' then
    let digits ← acceptWhile 2 isOctalDigit
    return .literal false (octalNumber digits)
  else
    match ← acceptWhile 1 Decimal.isDigit with
    | [d] =>
      if isOctalDigit c && isOctalDigit d then
        match ← acceptWhile 1 isOctalDigit with
        | [e] => return .literal false (← checkOctal [c, d, e])
        | _ => readReference [c, d]
      else readReference [c, d]
    | _ => readReference [c]

/-- What an escape means outside sets. -/
def readEscape (c : Char) : Reading Node := do
  if let some anchor := anchor? c then return .anchor anchor
  else if let some item := category? c then return .set false [item]
  else if let some code := control? c then return .literal false code
  else if Decimal.isDigit c then readDigitEscape c
  else return .literal false (← readCharacter c)

/-! ### Sets -/

/-- A token as a part of a set. -/
def readSetItem : Token → Reading SetItem
  | .plain c => return .literal c.toNat
  | .escape c => readSetEscape c

/-- The parts of a set that began at a place, after those read so far. -/
def readSetItems (start : Nat) : Nat → List SetItem → Reading (List SetItem)
  | 0, _ => throw .unfinished
  | fuel + 1, items => do
    match ← next with
    | none => failAt .unterminatedSet start
    | some this =>
      if this = .plain ']' ∧ items ≠ [] then return items
      else
        let first ← readSetItem this
        if ← accept '-' then
          match ← next with
          | none => failAt .unterminatedSet start
          | some (.plain ']') => return items ++ [first, .literal '-'.toNat]
          | some that =>
            let last ← readSetItem that
            let width := this.text.length + 1 + that.text.length
            match first, last with
            | .literal lo, .literal hi =>
              if hi < lo then fail (.badRange this.text that.text) width
              else readSetItems start fuel (items ++ [.range lo hi])
            | _, _ => fail (.badRange this.text that.text) width
        else readSetItems start fuel (items ++ [first])

/-- A set after its bracket. -/
def readSet : Reading Node := do
  let start := (← get).position - 1
  let negated ← accept '^'
  let items ← readSetItems start ((← get).rest.length + 1) []
  match items.eraseDups with
  | [.literal code] => return .literal negated code
  | items => return .set negated items

/-! ### Repetitions -/

/-- The least count that is too large. -/
def countLimit : Nat := 4294967295

/-- A count in digits, if there are any. -/
def readCount (digits : List Char) : Reading (Option Nat) := do
  if digits.isEmpty then return none
  else if Decimal.maxDigits < digits.length then throw (.countTooLong digits.length)
  else if countLimit ≤ Decimal.ofDigits digits then throw .countTooLarge
  else return some (Decimal.ofDigits digits)

/-- The end of the counts in a brace that began at a place, or the way back there. -/
def finishCounts (p : Progress) (lo hi : List Char) : Reading (Option (Nat × Option Nat)) := do
  if ← accept '\x7d' then
    let least := (← readCount lo).getD 0
    let most ← readCount hi
    if most.any (· < least) then failAt .reversedCounts p.position
    else return some (least, most)
  else
    set p
    return none

/-- The counts in a brace that is just behind, or nothing if the brace stands for itself. -/
def readCounts : Reading (Option (Nat × Option Nat)) := do
  let p ← get
  if p.rest.head? = some '\x7d' then return none
  else
    let lo ← acceptWhile p.rest.length Decimal.isDigit
    if ← accept ',' then
      let hi ← acceptWhile p.rest.length Decimal.isDigit
      finishCounts p lo hi
    else finishCounts p lo lo

/-- What a repetition repeats: a group that neither counts nor switches anything is only a bracket. -/
def repeatedBody : Node → List Node
  | .group none on off body => if on.isEmpty && off.isEmpty then body else [.group none on off body]
  | n => [n]

/-- The sign behind a repetition that says how it chooses its count; it is one sign. -/
def readGreed : Reading Greed := do
  if ← accept '?' then return .lazy
  else if ← accept '+' then return .possessive
  else return .greedy

/-- The repetition of the part before a sign that began at a place. -/
def readRepetition (start least : Nat) (most : Option Nat) : List Node → Reading (List Node)
  | [] => failAt .nothingToRepeat start
  | .anchor _ :: _ => failAt .nothingToRepeat start
  | .repeated _ _ _ _ :: _ => failAt .multipleRepeat start
  | item :: before => do
    let greed ← readGreed
    return .repeated greed least most (repeatedBody item) :: before

/-! ### Switches -/

def flag? : Char → Option Flags
  | 'i' => some { ignoreCase := true }
  | 'm' => some { multiline := true }
  | 's' => some { dotAll := true }
  | 'x' => some { verbose := true }
  | 'a' => some { ascii := true }
  | 'u' => some { unicode := true }
  | 't' => some { template := true }
  | _ => none

/-- Whether a letter names a switch, if only for other sorts of text. -/
def isFlagLetter (c : Char) : Bool := c == 'L' || (flag? c).isSome

/-- What is wrong with a token among switches: letters are unknown, all else is out of place. -/
def failFlag {α : Type} (token : Token) (otherwise : Reason) : Reading α :=
  match token with
  | .plain c => fail (if Text.isLetter c then .unknownFlag else otherwise) 1
  | .escape _ => fail otherwise 2

/-- The switches to turn on, from a letter on, and the sign that ends them. -/
def readFlagsOn : Nat → Char → Flags → Reading (Flags × Char)
  | 0, _, _ => throw .unfinished
  | fuel + 1, letter, on => do
    match flag? letter with
    | none => fail .localeFlag 0
    | some f =>
      let on := on.union f
      if on.ascii && on.unicode then fail .clashingFlags 0
      else
        match ← next with
        | none => fail .missingFlagsEnd 0
        | some (.plain c) =>
          if c = ')' ∨ c = '-' ∨ c = ':' then return (on, c)
          else if isFlagLetter c then readFlagsOn fuel c on
          else failFlag (.plain c) .missingFlagsEnd
        | some token => failFlag token .missingFlagsEnd

/-- The switches to turn off, from a letter on. -/
def readFlagsOff : Nat → Char → Flags → Reading Flags
  | 0, _, _ => throw .unfinished
  | fuel + 1, letter, off => do
    match flag? letter with
    | none => fail .alphabetFlagOff 0
    | some f =>
      if f.ascii || f.unicode then fail .alphabetFlagOff 0
      else
        let off := off.union f
        match ← next with
        | none => fail .missingColon 0
        | some (.plain c) =>
          if c = ':' then return off
          else if isFlagLetter c then readFlagsOff fuel c off
          else failFlag (.plain c) .missingColon
        | some token => failFlag token .missingColon

/-- The switches to turn off, behind a dash. -/
def readFlagsBehindDash : Reading Flags := do
  let fuel := (← get).rest.length + 1
  match ← next with
  | none => fail .missingFlag 0
  | some (.plain c) => if isFlagLetter c then readFlagsOff fuel c {} else failFlag (.plain c) .missingFlag
  | some token => failFlag token .missingFlag

/-- What is asked of the switches of a group once they are read. -/
def finishFlags (on off : Flags) : Reading (Option (Flags × Flags)) :=
  if off.template then fail .globalFlagOff 1
  else if on.meets off then fail .flagOnAndOff 1
  else return some (on, off)

/-- The switches of a group, those to turn on and those to turn off; nothing if they hold for the whole expression. -/
def readFlags (first : Char) : Reading (Option (Flags × Flags)) := do
  if first = '-' then
    let off ← readFlagsBehindDash
    finishFlags {} off
  else
    let (on, stop) ← readFlagsOn ((← get).rest.length + 1) first {}
    if stop = ')' then
      modify fun p => { p with flags := p.flags.union on }
      return none
    else if on.template then fail .globalFlagOn 1
    else if stop = '-' then
      let off ← readFlagsBehindDash
      finishFlags on off
    else finishFlags on {}

/-! ### Groups -/

/-- The least group number that is never given. -/
def groupLimit : Nat := 1073741823

def readGroupName (stop : Char) : Reading String := do
  let name ← readUntil stop "group name"
  if Text.isName name.toList then return name
  else fail (.badName name) (name.length + 1)

def groupNumber (name : String) : Reading Nat := do
  match (← get).names.lookup name with
  | some n => return n
  | none => fail (.unknownName name) (name.length + 1)

/-- The group that the text of a condition names, or numbers. -/
def conditionGroup (text : String) : Reading Nat := do
  let back := text.length + 1
  if Text.isName text.toList then groupNumber text
  else
    match Text.integer? text Decimal.maxDigits with
    | some (.ofNat 0) => fail .badGroupNumber back
    | some (.ofNat n) =>
      if groupLimit ≤ n then fail (.invalidGroup n) back
      else
        modify fun p =>
          if p.asked.any (·.1 == n) then p else { p with asked := p.asked ++ [(n, p.position - back)] }
        return n
    | _ => fail (.badName text) back

/-- The group that a condition asks for, by name or by number. -/
def readCondition : Reading Nat := do
  let text ← readUntil ')' "group name"
  let group ← conditionGroup text
  checkLookbehind group
  return group

def readNamedReference : Reading Node := do
  let name ← readGroupName ')'
  let group ← groupNumber name
  if !(← get).isClosed group then fail .openGroup (name.length + 1)
  else
    checkLookbehind group
    return .backreference group

/-- Opens the next group, under a name if it has one. -/
def openGroup (name : Option String) : Reading Nat := do
  let p ← get
  let number := p.nextGroup
  match name with
  | none =>
    set { p with widths := p.widths ++ [none] }
    return number
  | some name =>
    match p.names.lookup name with
    | some earlier => fail (.redefinedName name number earlier) (name.length + 1)
    | none =>
      set { p with widths := p.widths ++ [none], names := (name, number) :: p.names }
      return number

def closeGroup (number : Nat) (body : List Node) : Reading Unit :=
  modify fun p => { p with widths := p.widths.set (number - 1) (some (widthOf p.width body)) }

/-- Goes past the parenthesis that closes a group that began at a place. -/
def closeAt (start : Nat) : Reading Unit := do
  if ← accept ')' then return
  else failAt .unterminatedGroup start

/-- What a group is, as the signs at its beginning tell. -/
inductive Opening
  | comment
  | switched
  | reference (node : Node)
  | conditional (group : Nat)
  | look (behind negated : Bool)
  | atomic
  | capture (name : Option String)
  | plain (on off : Flags)

/-- A look behind, from the token behind its angle on. -/
def readLookbehind : Option Token → Reading Opening
  | none => fail .unexpectedEnd 0
  | some (.plain '=') => return .look true false
  | some (.plain '!') => return .look true true
  | some token => fail (.unknownExtension ('?' :: '<' :: token.text)) (token.text.length + 2)

/-- What a group is that began at a place, from the token behind its question mark on. -/
def readOpeningFrom (start : Nat) : Option Token → Reading Opening
  | none => fail .unexpectedEnd 0
  | some (.plain 'P') => do
    if ← accept '<' then return .capture (some (← readGroupName '>'))
    else if ← accept '=' then return .reference (← readNamedReference)
    else
      match ← next with
      | none => fail .unexpectedEnd 0
      | some token => fail (.unknownExtension ('?' :: 'P' :: token.text)) (token.text.length + 2)
  | some (.plain ':') => return .plain {} {}
  | some (.plain '#') => do
    if ← skipPast ')' then return .comment
    else failAt .unterminatedComment start
  | some (.plain '=') => return .look false false
  | some (.plain '!') => return .look false true
  | some (.plain '<') => do readLookbehind (← next)
  | some (.plain '(') => return .conditional (← readCondition)
  | some (.plain '>') => return .atomic
  | some (.plain c) => do
    if isFlagLetter c ∨ c = '-' then
      match ← readFlags c with
      | none => return .switched
      | some (on, off) => return .plain on off
    else fail (.unknownExtension ['?', c]) 2
  | some (.escape c) => fail (.unknownExtension ['?', '\\', c]) 3

/-- The signs at the beginning of a group that began at a place. -/
def readOpening (start : Nat) : Reading Opening := do
  if ← accept '?' then readOpeningFrom start (← next)
  else return .capture none

/-! ### Expressions -/

/-- Blanks that count for nothing where expressions are spaced out. -/
def isSpacing (c : Char) : Bool :=
  c == ' ' || c == '\t' || c == '\n' || c == '\r' || c == '\x0b' || c == '\x0c'

/-- A row with the part that a character at a place begins, or with its last part repeated; a parenthesis aside. -/
def readPlain (place : Nat) (c : Char) (before : List Node) : Reading (List Node) := do
  match c with
  | '[' => return (← readSet) :: before
  | '.' => return .any :: before
  | '^' => return .anchor .lineStart :: before
  | '$' => return .anchor .lineEnd :: before
  | '?' => readRepetition place 0 (some 1) before
  | '*' => readRepetition place 0 none before
  | '+' => readRepetition place 1 none before
  | '\x7b' =>
    match ← readCounts with
    | some (least, most) => readRepetition place least most before
    | none => return .literal false c.toNat :: before
  | _ => return .literal false c.toNat :: before

/-- Groups that are open or closed when the outermost look behind begins count as before it. -/
def beginLook (behind : Bool) : Reading Unit :=
  modify fun p => if behind && p.beforeLookbehind.isNone then { p with beforeLookbehind := some p.nextGroup } else p

mutual

def readChoice (verbose outermost : Bool) : Nat → Reading (List Node)
  | 0 => throw .unfinished
  | fuel + 1 => do
    let first ← readRow verbose outermost fuel []
    return choice (← readAlternatives verbose outermost fuel [first])

def readAlternatives (verbose outermost : Bool) : Nat → List (List Node) → Reading (List (List Node))
  | 0, _ => throw .unfinished
  | fuel + 1, before => do
    if ← accept '|' then
      let p ← get
      let verbose := if outermost then p.flags.verbose else verbose
      let row ← readRow verbose false fuel []
      readAlternatives verbose outermost fuel (before ++ [row])
    else return before

def readRow (verbose start : Bool) : Nat → List Node → Reading (List Node)
  | 0, _ => throw .unfinished
  | fuel + 1, before => do
    match ← peek with
    | none => return before.reverse.flatMap Node.unwrapped
    | some (.escape c) =>
      advance 2
      readRow verbose start fuel ((← readEscape c) :: before)
    | some (.plain c) =>
      if c = '|' ∨ c = ')' then return before.reverse.flatMap Node.unwrapped
      else
        let place := (← get).position
        advance 1
        if verbose && isSpacing c then readRow verbose start fuel before
        else if verbose && c == '#' then
          let _ ← skipPast '\n'
          readRow verbose start fuel before
        else if c = '(' then
          match ← readOpening place with
          | .comment => readRow verbose start fuel before
          | .switched =>
            if start && before.isEmpty then readRow (← get).flags.verbose start fuel before
            else failAt .misplacedFlags place
          | .reference node => readRow verbose start fuel (node :: before)
          | opening => readRow verbose start fuel ((← readGroup verbose place fuel opening) :: before)
        else readRow verbose start fuel (← readPlain place c before)

/-- The rest of a group that began at a place, after its first signs. -/
def readGroup (verbose : Bool) (place : Nat) : Nat → Opening → Reading Node
  | 0, _ => throw .unfinished
  | fuel + 1, opening => do
    match opening with
    | .conditional group =>
      let present ← readRow verbose false fuel []
      if ← accept '|' then
        let absent ← readRow verbose false fuel []
        if (← peek) = some (.plain '|') then fail .tooManyBranches 0
        else
          closeAt place
          return .conditional group present absent
      else
        closeAt place
        return .conditional group present []
    | .look behind negated =>
      let before := (← get).beforeLookbehind
      beginLook behind
      let body ← readChoice verbose false fuel
      modify fun p => { p with beforeLookbehind := before }
      closeAt place
      let width := (← get).width
      if behind then return .lookbehind negated (widthOf width body) body
      else return .lookahead negated body
    | .atomic =>
      let body ← readChoice verbose false fuel
      closeAt place
      return .atomic body
    | .plain on off =>
      let body ← readChoice ((verbose || on.verbose) && !off.verbose) false fuel
      closeAt place
      return .group none on off body
    | .capture name =>
      let number ← openGroup name
      let body ← readChoice verbose false fuel
      closeAt place
      closeGroup number body
      return .group (some number) {} {} body
    | .comment => return .group none {} {} []
    | .switched => return .group none {} {} []
    | .reference node => return node

end

end Reading

/-! ### Demands on whole expressions -/

mutual

/-- What looks behind must be of one width that is not too large; templates repeat nothing. -/
def Node.check (template : Bool) : Node → Except Reason Unit
  | .repeated greed _ _ body =>
    if template then .error (.templateRepetition greed) else checkRow template body
  | .group _ _ _ body => checkRow template body
  | .atomic body => checkRow template body
  | .branch alternatives => checkRows template alternatives
  | .conditional _ present absent => do
    checkRow template present
    checkRow template absent
  | .lookahead _ body => checkRow template body
  | .lookbehind _ width body =>
    if 0x100000000 ≤ width.least then .error .longLookbehind
    else if width.least ≠ width.most then .error .variableLookbehind
    else checkRow template body
  | _ => .ok ()

def checkRow (template : Bool) : List Node → Except Reason Unit
  | [] => .ok ()
  | n :: ns => do
    n.check template
    checkRow template ns

def checkRows (template : Bool) : List (List Node) → Except Reason Unit
  | [] => .ok ()
  | row :: rows => do
    checkRow template row
    checkRows template rows

end

/-- Each expression is of one alphabet, the wide one unless it says otherwise. -/
def Flags.withAlphabet? (f : Flags) : Option Flags :=
  if f.ascii then if f.unicode then none else some f
  else some { f with unicode := true }

end Regex

/-- A regular expression with its switches. -/
structure Regex where
  flags : Regex.Flags
  body : List Regex.Node

namespace Regex

/-- What is asked of an expression once all of it has been read. -/
def finish (body : List Node) : Reading Regex := do
  let p ← get
  match p.flags.withAlphabet? with
  | none => throw .clashingAlphabets
  | some flags =>
    if !p.rest.isEmpty then Reading.fail .unbalanced 0
    else
      match p.asked.find? fun a => p.nextGroup ≤ a.1 with
      | some (group, place) => Reading.failAt (.invalidGroup group) place
      | none =>
        match checkRow flags.template body with
        | .error reason => throw (.misread reason none)
        | .ok () => return ⟨flags, body⟩

def read [Text.CharacterNames] (pattern : List Char) (flags : Flags) : Except Fault Regex :=
  let reading : Reading Regex := do
    Reading.advance 0
    finish (← Reading.readChoice flags.verbose true (4 * pattern.length + 8))
  (reading.run { rest := pattern, position := 0, flags }).map Prod.fst

end Regex

end RuleTree
