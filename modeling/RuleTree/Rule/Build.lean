import RuleTree.Regex.Literal
import RuleTree.Rule.Tree

/-!
# Building rule trees

Short ways to write rule trees, one for each factory (`equal`, `prop`, `required` and so on). Nothing is checked here; a
validator is built of well formed trees only.
-/

namespace RuleTree.Tree

/-! ### Leaves -/

def equal (value : Value) (message : Value := .null) : Tree := .check (.equal value) message

def bound (b : Bound) (limit : Value) (message : Value := .null) : Tree := .check (.bound b limit) message

def range (min max : Value) (message : Value := .null) : Tree := .check (.range min max) message

def pattern (regex : Value) (message : Value := .null) : Tree := .check (.pattern regex) message

/-- The pattern of an expression, as its literal. -/
def patternOf [Text.CharacterNames] (e : Expression) (message : Value := .null) : Except ExpressionFault Tree :=
  e.literal.map fun l => pattern (.str l) message

def dateBound (b : DateBound) (boundary : Value) (message : Value := .null) : Tree :=
  .check (.dateBound b boundary) message

def between (first last : Value) (message : Value := .null) : Tree := .check (.between first last) message

def mismatch (message : Value := .null) : Tree := .check .mismatch message

/-! ### Rules with children -/

def any (rules : List Tree) : Tree := .group .any .fixed rules

def union (rules : List Tree) : Tree := .group .union .fixed rules

def container (p : Primitive) (rules : List Tree) : Tree := .group (.container p) .fixed rules

def prop (name : Value) (rules : List Tree) : Tree := .group (.prop name) .fixed rules

def item (rules : List Tree) : Tree := .group .item .fixed rules

def isNull : Tree → Bool
  | .stray .null => true
  | _ => false

/-- A required value. Nulls among the arguments stand for no rule, and a text after the rules is the message. -/
def required (arguments : List Tree) (message : Value := .null) : Tree :=
  let rules := arguments.filter (!·.isNull)
  match rules.getLast? with
  | some (.stray (.str s)) => .group (.required (.str s)) .fixed rules.dropLast
  | _ => .group (.required message) .fixed rules

end RuleTree.Tree
