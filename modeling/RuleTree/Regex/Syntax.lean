/-!
# Regular expressions

The syntax trees of regular expressions, how much text a tree can match, and the parts that alternatives share.
-/

namespace RuleTree.Regex

/-- The switches of an expression, given beside it or written into it. -/
structure Flags where
  ignoreCase : Bool := false
  multiline : Bool := false
  dotAll : Bool := false
  verbose : Bool := false
  ascii : Bool := false
  unicode : Bool := false
  template : Bool := false
deriving DecidableEq

namespace Flags

def union (a b : Flags) : Flags where
  ignoreCase := a.ignoreCase || b.ignoreCase
  multiline := a.multiline || b.multiline
  dotAll := a.dotAll || b.dotAll
  verbose := a.verbose || b.verbose
  ascii := a.ascii || b.ascii
  unicode := a.unicode || b.unicode
  template := a.template || b.template

def without (a b : Flags) : Flags where
  ignoreCase := a.ignoreCase && !b.ignoreCase
  multiline := a.multiline && !b.multiline
  dotAll := a.dotAll && !b.dotAll
  verbose := a.verbose && !b.verbose
  ascii := a.ascii && !b.ascii
  unicode := a.unicode && !b.unicode
  template := a.template && !b.template

def isEmpty (a : Flags) : Bool := a == {}

/-- Whether a switch is on in both. -/
def meets (a b : Flags) : Bool := a.without b != a

/-- The switches inside a group that turns some on and some off; the character classes are those of one alphabet. -/
def inside (outer on off : Flags) : Flags :=
  let outer := if on.ascii || on.unicode then { outer with ascii := false, unicode := false } else outer
  (outer.union on).without off

theorem union_empty (a : Flags) : a.union {} = a := by simp [union]

theorem inside_empty (a : Flags) : a.inside {} {} = a := by simp [inside, union, without]

end Flags

/-- A class of characters that the alphabet decides. -/
inductive Category
  | digit
  | space
  | word
deriving DecidableEq

/-- A part of a character set. Characters are given by their code points. -/
inductive SetItem
  | literal (code : Nat)
  | range (first last : Nat)
  | category (category : Category) (negated : Bool)
deriving DecidableEq

/-- A demand on a place between characters. -/
inductive Anchor
  | lineStart
  | textStart
  | lineEnd
  | textEnd
  | boundary
  | noBoundary
deriving DecidableEq

/-- How a repetition chooses its count: as many as possible first, as few as possible first, or as many as possible at once. -/
inductive Greed
  | greedy
  | lazy
  | possessive
deriving DecidableEq

/-- How many characters a part can match. -/
structure Width where
  least : Nat
  most : Nat
deriving DecidableEq

/-- A part of an expression; expressions are rows of parts. -/
inductive Node
  | any
  | literal (negated : Bool) (code : Nat)
  | set (negated : Bool) (items : List SetItem)
  | anchor (anchor : Anchor)
  | repeated (greed : Greed) (least : Nat) (most : Option Nat) (body : List Node)
  | group (number : Option Nat) (on off : Flags) (body : List Node)
  | atomic (body : List Node)
  | branch (alternatives : List (List Node))
  | backreference (group : Nat)
  | conditional (group : Nat) (present absent : List Node)
  | lookahead (negated : Bool) (body : List Node)
  | lookbehind (negated : Bool) (width : Width) (body : List Node)

/-! ### Widths -/

/-- Widths are counted up to this limit. -/
def widthLimit : Nat := 0x10000000000000000

mutual

/-- The width of a part, given the widths of the groups before it. -/
def Node.width (groups : Nat → Width) : Node → Width
  | .any => ⟨1, 1⟩
  | .literal _ _ => ⟨1, 1⟩
  | .set _ _ => ⟨1, 1⟩
  | .anchor _ => ⟨0, 0⟩
  | .repeated _ least most body =>
    let w := widthOf groups body
    ⟨w.least * least, match most with
      | some n => w.most * n
      | none => if w.most = 0 then 0 else widthLimit⟩
  | .group _ _ _ body => widthOf groups body
  | .atomic body => widthOf groups body
  | .branch alternatives => widthOfAny groups alternatives
  | .backreference n => groups n
  | .conditional _ present absent =>
    let p := widthOf groups present
    let a := widthOf groups absent
    ⟨min p.least a.least, max p.most a.most⟩
  | .lookahead _ _ => ⟨0, 0⟩
  | .lookbehind _ _ _ => ⟨0, 0⟩

def widthOf (groups : Nat → Width) : List Node → Width
  | [] => ⟨0, 0⟩
  | n :: ns =>
    let w := n.width groups
    let r := widthOf groups ns
    ⟨min (w.least + r.least) widthLimit, min (w.most + r.most) widthLimit⟩

def widthOfAny (groups : Nat → Width) : List (List Node) → Width
  | [] => ⟨widthLimit, 0⟩
  | ns :: alternatives =>
    let w := widthOf groups ns
    let r := widthOfAny groups alternatives
    ⟨min w.least r.least, max w.most r.most⟩

end

/-! ### Alternatives -/

/-- Whether two parts without parts of their own are equal. -/
def Node.sameUnit : Node → Node → Bool
  | .any, .any => true
  | .literal m a, .literal n b => m == n && a == b
  | .set m is, .set n js => m == n && is == js
  | .anchor a, .anchor b => a == b
  | .backreference a, .backreference b => a == b
  | _, _ => false

/-- The beginning that a row shares with all others, and what is left of each. -/
def sharedStart : List Node → List (List Node) → List Node × List Node × List (List Node)
  | [], others => ([], [], others)
  | n :: ns, others =>
    if others.all fun o => o.head?.any n.sameUnit then
      let (shared, first, rest) := sharedStart ns (others.map List.tail)
      (n :: shared, first, rest)
    else ([], n :: ns, others)

/-- The characters that a row of one part matches, as parts of a set. -/
def setItems? : List Node → Option (List SetItem)
  | [.literal false code] => some [.literal code]
  | [.set false items] => some items
  | _ => none

/-- The row of parts that stands for a choice: what all alternatives begin with stands before it, and a choice between
single characters is a set. -/
def choice : List (List Node) → List Node
  | [] => []
  | [only] => only
  | first :: others =>
    let (shared, first, others) := sharedStart first others
    match (first :: others).mapM setItems? with
    | some items => shared ++ [.set false items.flatten.eraseDups]
    | none => shared ++ [.branch (first :: others)]

/-- What a group that neither counts nor switches anything holds; any other part alone. -/
def Node.unwrapped : Node → List Node
  | .group none on off body => if on.isEmpty && off.isEmpty then body else [.group none on off body]
  | n => [n]

theorem choice_singleton (ns : List Node) : choice [ns] = ns := rfl

end RuleTree.Regex
