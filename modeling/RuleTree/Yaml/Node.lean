import RuleTree.Yaml.Layout
import RuleTree.Yaml.Tag

/-!
# Nodes

A text as a tree: texts, rows and mappings with their sorts, aliases replaced by what they stand for. A text holds one
document. Tokens are asked for one by one, so what is malformed among them is found before a fault of the text behind them.
-/

namespace RuleTree.Yaml

/-- A node of the tree. -/
inductive Node
  | scalar (tag : Tag) (text : String)
  | sequence (tag : Tag) (items : List Node)
  | mapping (tag : Tag) (entries : List (Node × Node))

namespace Node

def tag : Node → Tag
  | .scalar t _ => t
  | .sequence t _ => t
  | .mapping t _ => t

def absent : Node := .scalar .null ""

/-- An alias to a node that it is a part of. -/
def enclosing : Node := .scalar .enclosing ""

end Node

/-- How far the tokens are put together: what is left of them, what is wrong behind them, what the handles of tags stand for,
and the anchored nodes. A node whose end was not met yet is known by its name only. -/
structure Assembly where
  tokens : List Token
  fault : Fault
  handles : List (String × String) := []
  anchors : List (String × Option Node) := []

abbrev Assemble := StateT Assembly (Except Fault)

namespace Assemble

def malformed {α : Type} : Assemble α := throw .malformed

/-- The next token. -/
def peek : Assemble Token := do
  match (← get).tokens with
  | t :: _ => return t
  | [] => throw (← get).fault

def skip : Assemble Unit := modify fun s => { s with tokens := s.tokens.tail }

/-- Goes past a token, if it is next. -/
def skips (t : Token) : Assemble Bool := do
  if (← peek) = t then
    skip
    return true
  else return false

/-! ### Properties -/

/-- What may stand in front of a node: its anchor and the full name of its sort. -/
structure Properties where
  anchor : Option String := none
  tag : Option String := none

/-- The handles that need no directive. -/
def knownHandles : List (String × String) := [("!", "!"), ("!!", Tag.lead)]

/-- The full name of a sort. -/
def fullName (handle : Option String) (suffix : String) : Assemble String := do
  match handle with
  | none => return suffix
  | some h =>
    match (← get).handles.lookup h with
    | some lead => return lead ++ suffix
    | none => malformed

/-- Anchor and tag in either order, each at most once. -/
def properties : Assemble Properties := do
  match ← peek with
  | .anchor name =>
    skip
    match ← peek with
    | .tag handle suffix =>
      skip
      return { anchor := name, tag := ← fullName handle suffix }
    | _ => return { anchor := name }
  | .tag handle suffix =>
    skip
    match ← peek with
    | .anchor name =>
      skip
      return { anchor := name, tag := ← fullName handle suffix }
    | _ => return { tag := ← fullName handle suffix }
  | _ => return {}

namespace Properties

/-- The sort of a node by its tag, if that tells one. -/
def sort? (p : Properties) : Option Tag := (p.tag.filter (· != "!")).map Tag.ofName

/-- The sort of a text: a lone sign for a tag has it found by its form, like that of a plain one. -/
def ofText (p : Properties) (text : String) (plain : Bool) : Tag :=
  p.sort?.getD (if plain || p.tag.isSome then Tag.ofPlain text else .str)

def ofCollection (p : Properties) (usual : Tag) : Tag := p.sort?.getD usual

/-- Reads a node and keeps it under its anchor, a new one. -/
def anchored (p : Properties) (body : Assemble Node) : Assemble Node := do
  match p.anchor with
  | none => body
  | some name =>
    if ((← get).anchors.lookup name).isSome then malformed
    else
      modify fun s => { s with anchors := (name, none) :: s.anchors }
      let n ← body
      modify fun s => { s with anchors := (name, some n) :: s.anchors }
      return n

end Properties

/-- The node that an alias stands for. -/
def aliased (name : String) : Assemble Node := do
  match (← get).anchors.lookup name with
  | some (some n) => return n
  | some none => return Node.enclosing
  | none => malformed

/-- Goes past the sign between two elements of a flow; none stands in front of the first one. -/
def separated (first : Bool) : Assemble Bool := if first then return true else skips .flowEntry

/-! ### Nodes -/

/-- A node, or what stands for it before some tokens. -/
def orAbsent (stops : List Token) (body : Assemble Node) : Assemble Node := do
  if stops.contains (← peek) then return Node.absent else body

mutual

def node : Nat → Bool → Bool → Assemble Node
  | 0, _, _ => malformed
  | fuel + 1, inBlock, behindKey => do
    if let .alias name ← peek then
      skip
      aliased name
    else
      let p ← properties
      let sequence (body : Assemble (List Node)) : Assemble Node :=
        p.anchored (return .sequence (p.ofCollection .seq) (← body))
      let mapping (body : Assemble (List (Node × Node))) : Assemble Node :=
        p.anchored (return .mapping (p.ofCollection .map) (← body))
      match ← peek with
      | .scalar text plain =>
        skip
        p.anchored (return .scalar (p.ofText text plain) text)
      | .flowSequenceStart =>
        skip
        sequence (flowItems fuel true)
      | .flowMappingStart =>
        skip
        mapping (flowEntries fuel true)
      | next =>
        if behindKey ∧ next = .blockEntry then sequence (looseItems fuel)
        else if inBlock ∧ next = .blockSequenceStart then
          skip
          sequence (blockItems fuel)
        else if inBlock ∧ next = .blockMappingStart then
          skip
          mapping (blockEntries fuel)
        else if p.anchor.isSome || p.tag.isSome then p.anchored (return .scalar (p.ofText "" true) "")
        else malformed

def blockItems : Nat → Assemble (List Node)
  | 0 => malformed
  | fuel + 1 => do
    if ← skips .blockEntry then
      let item ← orAbsent [.blockEntry, .blockEnd] (node fuel true false)
      return item :: (← blockItems fuel)
    else if ← skips .blockEnd then return []
    else malformed

/-- The elements of a row that is not indented; it ends where no element follows. -/
def looseItems : Nat → Assemble (List Node)
  | 0 => malformed
  | fuel + 1 => do
    if ← skips .blockEntry then
      let item ← orAbsent [.blockEntry, .key, .value, .blockEnd] (node fuel true false)
      return item :: (← looseItems fuel)
    else return []

/-- The entries of a block, up to its end. -/
def blockEntries : Nat → Assemble (List (Node × Node))
  | 0 => malformed
  | fuel + 1 => do
    if ← skips .key then
      let key ← orAbsent [.key, .value, .blockEnd] (node fuel true true)
      let value ← do
        if ← skips .value then orAbsent [.key, .value, .blockEnd] (node fuel true true)
        else pure Node.absent
      return (key, value) :: (← blockEntries fuel)
    else if ← skips .blockEnd then return []
    else malformed

/-- A key behind its sign and the value that may follow, inside a flow with some last token. -/
def flowPair : Nat → Token → Assemble (Node × Node)
  | 0, _ => malformed
  | fuel + 1, last => do
    let key ← orAbsent [.value, .flowEntry, last] (node fuel false false)
    if ← skips .value then
      return (key, ← orAbsent [.flowEntry, last] (node fuel false false))
    else return (key, Node.absent)

/-- The elements of a flow, up to its end. A pair alone is a mapping with one entry. -/
def flowItems : Nat → Bool → Assemble (List Node)
  | 0, _ => malformed
  | fuel + 1, first => do
    if ← skips .flowSequenceEnd then return []
    else if !(← separated first) then malformed
    else if ← skips .key then
      let pair ← flowPair fuel .flowSequenceEnd
      return .mapping .map [pair] :: (← flowItems fuel false)
    else if ← skips .flowSequenceEnd then return []
    else
      let item ← node fuel false false
      return item :: (← flowItems fuel false)

/-- The entries of a flow, up to its end. A key alone has no value. -/
def flowEntries : Nat → Bool → Assemble (List (Node × Node))
  | 0, _ => malformed
  | fuel + 1, first => do
    if ← skips .flowMappingEnd then return []
    else if !(← separated first) then malformed
    else if ← skips .key then
      let pair ← flowPair fuel .flowMappingEnd
      return pair :: (← flowEntries fuel false)
    else if ← skips .flowMappingEnd then return []
    else
      let key ← node fuel false false
      return (key, Node.absent) :: (← flowEntries fuel false)

end

/-! ### Documents -/

/-- The directives in front of a document: one of a version at most, and each handle once. -/
def directives : Nat → Bool → List (String × String) → Assemble (List (String × String))
  | 0, _, _ => malformed
  | fuel + 1, versioned, handles => do
    match ← peek with
    | .versionDirective major =>
      if versioned || major ≠ 1 then malformed
      else
        skip
        directives fuel true handles
    | .tagDirective handle lead =>
      if (handles.lookup handle).isSome then malformed
      else
        skip
        directives fuel versioned ((handle, lead) :: handles)
    | .otherDirective =>
      skip
      directives fuel versioned handles
    | _ => return handles

def isDirective : Token → Bool
  | .versionDirective _ => true
  | .tagDirective _ _ => true
  | .otherDirective => true
  | _ => false

/-- Goes past the signs at the end of a document. -/
def skipEnds : Assemble Unit := modify fun s => { s with tokens := s.tokens.dropWhile (· == .documentEnd) }

def content (fuel : Nat) : Assemble Node := do
  let next ← peek
  if isDirective next || [.documentStart, .documentEnd, .streamEnd].contains next then return Node.absent
  else node fuel true false

/-- The only document of a text, if there is one. A second one is malformed, once its directives are read. -/
def document (fuel : Nat) : Assemble (Option Node) := do
  let first ← peek
  if first = .streamEnd then return none
  else
    let n ← if isDirective first || first == .documentStart then do
        let handles ← directives fuel false []
        modify fun s => { s with handles := handles ++ knownHandles }
        if ← skips .documentStart then content fuel else malformed
      else do
        modify fun s => { s with handles := knownHandles }
        node fuel true false
    skipEnds
    if (← peek) = .streamEnd then return some n
    else
      let _ ← directives fuel false []
      malformed

end Assemble

/-- The tree of some tokens with a fault behind them, if they make one before the fault is met. -/
def Node.ofTokens (tokens : List Token) (fault : Fault) : Except Fault (Option Node) :=
  (·.1) <$> (Assemble.document (2 * tokens.length + 2)).run { tokens, fault }

end RuleTree.Yaml
