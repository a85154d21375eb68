import RuleTree.Regex.Folding
import RuleTree.Regex.Reader

/-!
# Searching with regular expressions

Whether an expression matches somewhere in a text. A part of an expression tries its ways of matching in order, each with all
that follows it, and the first way that lets everything succeed counts; atomic parts and looks around settle on their own
first way.
-/

namespace RuleTree.Regex

/-- A place in a text, and where the ends of groups were last met: the start of group `n` under the number `2 n`, its end
under `2 n + 1`, the latest first. -/
structure Cursor where
  position : Nat
  marks : List (Nat × Nat)

namespace Cursor

def mark (c : Cursor) (number : Nat) : Cursor := { c with marks := (number, c.position) :: c.marks }

/-- The ends of what a group holds. -/
def captured? (c : Cursor) (group : Nat) : Option (Nat × Nat) :=
  match c.marks.lookup (2 * group), c.marks.lookup (2 * group + 1) with
  | some first, some last => if first ≤ last then some (first, last) else none
  | _, _ => none

end Cursor

/-- What is left to match from a cursor on. -/
abbrev Rest := Cursor → Option Cursor

/-! ### Places -/

def isWordAt (f : Flags) (text : Array Char) (i : Nat) : Bool :=
  text[i]?.any (Category.word.holds f.unicode)

/-- Whether a word starts or ends at a place. -/
def isBoundary (f : Flags) (text : Array Char) (i : Nat) : Bool :=
  (0 < i && isWordAt f text (i - 1)) != isWordAt f text i

def Anchor.holds (f : Flags) (text : Array Char) (i : Nat) : Anchor → Bool
  | .textStart => i == 0
  | .lineStart => i == 0 || (f.multiline && text[i - 1]? == some '\n')
  | .textEnd => i == text.size
  | .lineEnd => i == text.size || (text[i]? == some '\n' && (f.multiline || i + 1 == text.size))
  | .boundary => !text.isEmpty && isBoundary f text i
  | .noBoundary => !text.isEmpty && !isBoundary f text i

/-! ### Repetitions -/

/-- Repeats a part from a cursor on, as often as it must, and then more or fewer times as what follows allows. A round
that moves nothing is the last. -/
def iterate (body : Cursor → Rest → Option Cursor) (lazy : Bool) (least : Nat) (most : Option Nat) (rest : Rest) :
    Nat → Nat → Option Nat → Cursor → Option Cursor
  | 0, _, _, _ => none
  | fuel + 1, count, last, c =>
    if count < least then body c (iterate body lazy least most rest fuel (count + 1) last)
    else
      let more (_ : Unit) : Option Cursor :=
        if most.all (count < ·) && last != some c.position then
          body c (iterate body lazy least most rest fuel (count + 1) (some c.position))
        else none
      if lazy then (rest c).orElse more else (more ()).orElse fun _ => rest c

/-- Repeats a part as often as it can and never takes a round back. -/
def iterateAtOnce (body : Cursor → Rest → Option Cursor) (least : Nat) (most : Option Nat) :
    Nat → Nat → Option Nat → Cursor → Option Cursor
  | 0, _, _, _ => none
  | fuel + 1, count, last, c =>
    if count < least then
      match body c some with
      | some d => iterateAtOnce body least most fuel (count + 1) last d
      | none => none
    else if most.all (count < ·) && last != some c.position then
      match body c some with
      | some d => iterateAtOnce body least most fuel (count + 1) (some c.position) d
      | none => some c
    else some c

/-! ### Matching -/

/-- Matches one character. -/
def step (text : Array Char) (holds : Char → Bool) (c : Cursor) (rest : Rest) : Option Cursor :=
  match text[c.position]? with
  | some d => if holds d then rest { c with position := c.position + 1 } else none
  | none => none

/-- Whether the text between two places is met again at a third. -/
def repeatsAt (f : Flags) (text : Array Char) (first last at_ : Nat) : Bool :=
  (List.range (last - first)).all fun i =>
    match text[first + i]?, text[at_ + i]? with
    | some c, some d => f.fold c == f.fold d
    | _, _ => false

/-- Goes on after a look around: what it captured is kept, the place is the old one. -/
def afterLook (negated : Bool) (c : Cursor) (found : Option Cursor) (rest : Rest) : Option Cursor :=
  match negated, found with
  | false, some d => rest { c with marks := d.marks }
  | true, none => rest c
  | _, _ => none

mutual

def Node.run (text : Array Char) : Node → Flags → Cursor → Rest → Option Cursor
  | .any, f, c, rest => step text (fun d => f.dotAll || d != '\n') c rest
  | .literal negated code, f, c, rest => step text (fun d => f.literalHolds code d != negated) c rest
  | .set negated items, f, c, rest => step text (fun d => items.any (·.holds f d) != negated) c rest
  | .anchor anchor, f, c, rest => if anchor.holds f text c.position then rest c else none
  | .repeated greed least most body, f, c, rest =>
    let fuel := least + (text.size - c.position) + 3
    match greed with
    | .greedy => iterate (fun c rest => runRow text body f c rest) false least most rest fuel 0 none c
    | .lazy => iterate (fun c rest => runRow text body f c rest) true least most rest fuel 0 none c
    | .possessive =>
      (iterateAtOnce (fun c rest => runRow text body f c rest) least most fuel 0 none c).bind rest
  | .group (some number) on off body, f, c, rest =>
    runRow text body (f.inside on off) (c.mark (2 * number)) fun d => rest (d.mark (2 * number + 1))
  | .group none on off body, f, c, rest => runRow text body (f.inside on off) c rest
  | .atomic body, f, c, rest => (runRow text body f c some).bind rest
  | .branch alternatives, f, c, rest => runAny text alternatives f c rest
  | .backreference group, f, c, rest =>
    match c.captured? group with
    | some (first, last) =>
      if repeatsAt f text first last c.position then rest { c with position := c.position + (last - first) } else none
    | none => none
  | .conditional group present absent, f, c, rest =>
    if (c.captured? group).isSome then runRow text present f c rest else runRow text absent f c rest
  | .lookahead negated body, f, c, rest => afterLook negated c (runRow text body f c some) rest
  | .lookbehind negated width body, f, c, rest =>
    let found :=
      if c.position < width.least then none
      else runRow text body f { c with position := c.position - width.least } some
    afterLook negated c found rest

def runRow (text : Array Char) : List Node → Flags → Cursor → Rest → Option Cursor
  | [], _, c, rest => rest c
  | n :: ns, f, c, rest => n.run text f c fun d => runRow text ns f d rest

def runAny (text : Array Char) : List (List Node) → Flags → Cursor → Rest → Option Cursor
  | [], _, _, _ => none
  | row :: rows, f, c, rest => (runRow text row f c rest).orElse fun _ => runAny text rows f c rest

end

end Regex

/-- Whether an expression matches anywhere in a text. -/
def Regex.search (r : Regex) (s : String) : Bool :=
  let text := s.toList.toArray
  (List.range (text.size + 1)).any fun i => (Regex.runRow text r.body r.flags ⟨i, []⟩ some).isSome

end RuleTree
