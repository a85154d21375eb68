import RuleTree.Text.Case

/-!
# Paths

Names of files: the parts between slashes, without those that say nothing.
-/

namespace RuleTree

/-- A path: the slashes it starts with, and the names of which it leads through. -/
structure Path where
  root : List Char
  parts : List (List Char)
deriving DecidableEq

namespace Path

/-- Two slashes at the start are kept apart from one; three count as one. -/
def rootOf (slashes : Nat) : List Char :=
  match slashes with
  | 0 => []
  | 2 => ['/', '/']
  | _ => ['/']

def names (text : String) : List (List Char) := text.toList.splitOn '/'

def ofText (text : String) : Path where
  root := rootOf (text.toList.takeWhile (· == '/')).length
  parts := (names text).filter fun p => !(p.isEmpty || p == ['.'])

def text (p : Path) : String :=
  if p.root.isEmpty && p.parts.isEmpty then "."
  else String.ofList (p.root ++ ['/'].intercalate p.parts)

/-- The end of a name from its last point on. A point at either end of the name starts none. -/
def suffixOf (name : List Char) : List Char :=
  let ending := (name.reverse.takeWhile (· != '.')).reverse
  if ending.isEmpty || name.length ≤ ending.length + 1 then [] else '.' :: ending

def suffix (p : Path) : String := String.ofList (suffixOf (p.parts.getLast?.getD []))

/-- Whether the name of a file says that it holds JSON. -/
def isJson (p : Path) : Bool := Text.lower p.suffix == ".json"

end Path

end RuleTree
