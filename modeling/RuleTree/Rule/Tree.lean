import RuleTree.Rule.Kind
import RuleTree.Value.Basic

/-!
# Rule trees

A rule tree as its author built it, well formed or not: every field may hold any value, entries of a group may be no rules at
all, and a group's `rules` field may be no row of entries. Compiling a tree tells which trees mean something.
-/

namespace RuleTree

/-- What a leaf demands. The last form is a general class of rules, of no kind of its own; some of these have a value. -/
inductive Check
  | equal (value : Value)
  | bound (b : Bound) (limit : Value)
  | range (min max : Value)
  | pattern (regex : Value)
  | dateBound (b : DateBound) (boundary : Value)
  | between (begin last : Value)
  | mismatch
  | kindless (typeName : String) (value : Option Value)

/-- What a rule with children does. The last form is a general class of rules, of no kind of its own. -/
inductive Group
  | any
  | union
  | container (p : Primitive)
  | prop (name : Value)
  | item
  | required (message : Value)
  | kindless (typeName : String)

/-- A row of children is fixed or a list; they mean the same. -/
inductive Row
  | fixed
  | list
deriving DecidableEq

inductive Tree
  /-- An entry that is no rule. -/
  | stray (value : Value)
  /-- A leaf with its message for a failure. -/
  | check (check : Check) (message : Value)
  /-- A rule with a row of children. -/
  | group (group : Group) (row : Row) (rules : List Tree)
  /-- A rule whose `rules` field holds no row; null stands for no children. -/
  | unlisted (group : Group) (rules : Value)

/-! ### Kinds -/

def Check.kind? : Check → Option RuleKind
  | .equal _ => some .equal
  | .bound b _ => some (.bound b)
  | .range _ _ => some .range
  | .pattern _ => some .pattern
  | .dateBound b _ => some (.dateBound b)
  | .between _ _ => some .between
  | .mismatch => some .mismatch
  | .kindless _ _ => none

def Group.kind? : Group → Option RuleKind
  | .any => some .any
  | .union => some .union
  | .container p => some (.container p)
  | .prop _ => some .prop
  | .item => some .item
  | .required _ => some .required
  | .kindless _ => none

namespace Tree

/-- The kind of a rule; an entry that is no rule and a rule of a general class have none. -/
def kind? : Tree → Option RuleKind
  | .stray _ => none
  | .check c _ => c.kind?
  | .group g _ _ => g.kind?
  | .unlisted g _ => g.kind?

/-- The type of an entry without a kind. -/
def typeName : Tree → String
  | .stray v => v.typeName
  | .check (.kindless n _) _ => n
  | .group (.kindless n) _ _ => n
  | .unlisted (.kindless n) _ => n
  | _ => ""

/-- Whether an entry is a rule, if only of a general class. -/
def isRule : Tree → Bool
  | .stray _ => false
  | _ => true

end Tree

/-! ### Sameness -/

def Check.same : Check → Check → Bool
  | .equal v, .equal w => v.same w
  | .bound b v, .bound c w => b == c && v.same w
  | .range v w, .range v' w' => v.same v' && w.same w'
  | .pattern v, .pattern w => v.same w
  | .dateBound b v, .dateBound c w => b == c && v.same w
  | .between v w, .between v' w' => v.same v' && w.same w'
  | .mismatch, .mismatch => true
  | .kindless m v, .kindless n w =>
    m == n && (match v, w with
      | none, none => true
      | some v, some w => v.same w
      | _, _ => false)
  | _, _ => false

def Group.same : Group → Group → Bool
  | .any, .any => true
  | .union, .union => true
  | .container p, .container q => p == q
  | .prop v, .prop w => v.same w
  | .item, .item => true
  | .required v, .required w => v.same w
  | .kindless m, .kindless n => m == n
  | _, _ => false

mutual

/-- Whether two trees are built alike, down to every field. -/
def Tree.same : Tree → Tree → Bool
  | .stray v, .stray w => v.same w
  | .check c m, .check d n => c.same d && m.same n
  | .group g r ts, .group h s us => g.same h && r == s && Tree.sameRows ts us
  | .unlisted g v, .unlisted h w => g.same h && v.same w
  | _, _ => false

def Tree.sameRows : List Tree → List Tree → Bool
  | [], [] => true
  | t :: ts, u :: us => t.same u && Tree.sameRows ts us
  | _, _ => false

end

end RuleTree
