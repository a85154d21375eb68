import RuleTree.Value.Kind

/-!
# Kinds of rules

The kinds of rules, their names in documents, and which kinds may stand at which place of a tree (`CONTAINER_CHILD_KINDS`,
`ANY_CHILD_KINDS`).
-/

namespace RuleTree

/-- A bound of a number, or of the length of a text or an array. -/
inductive Bound
  | min
  | max
  | less
  | more
deriving DecidableEq

/-- How a date must lie relative to a boundary. -/
inductive DateBound
  | before
  | after
  | notBefore
  | notAfter
deriving DecidableEq

inductive RuleKind
  | equal
  | bound (b : Bound)
  | range
  | pattern
  | dateBound (b : DateBound)
  | between
  | mismatch
  | any
  | union
  | container (p : Primitive)
  | prop
  | item
  | required
deriving DecidableEq

/-! ### Names -/

def Bound.name : Bound → String
  | .min => "min"
  | .max => "max"
  | .less => "less"
  | .more => "more"

def DateBound.name : DateBound → String
  | .before => "before"
  | .after => "after"
  | .notBefore => "begin"
  | .notAfter => "end"

namespace RuleKind

def name : RuleKind → String
  | .equal => "equal"
  | .bound b => b.name
  | .range => "range"
  | .pattern => "pattern"
  | .dateBound b => b.name
  | .between => "between"
  | .mismatch => "mismatch"
  | .any => "any"
  | .union => "union"
  | .container p => p.name
  | .prop => "prop"
  | .item => "item"
  | .required => "required"

def all : List RuleKind :=
  [.equal, .bound .min, .bound .max, .bound .less, .bound .more, .range, .pattern,
    .dateBound .before, .dateBound .after, .dateBound .notBefore, .dateBound .notAfter, .between, .mismatch,
    .any, .union, .container .object, .container .string, .container .number, .container .boolean,
    .container .date, .container .array, .prop, .item, .required]

def ofName? (n : String) : Option RuleKind := all.find? (·.name = n)

theorem mem_all (k : RuleKind) : k ∈ all := by
  cases k with
  | bound b => cases b <;> decide
  | dateBound b => cases b <;> decide
  | container p => cases p <;> decide
  | _ => decide

theorem ofName?_name (k : RuleKind) : ofName? k.name = some k := by
  cases k with
  | bound b => cases b <;> decide
  | dateBound b => cases b <;> decide
  | container p => cases p <;> decide
  | _ => decide

theorem name_injective {j k : RuleKind} (h : j.name = k.name) : j = k := by
  have hj := ofName?_name j
  rw [h, ofName?_name k] at hj
  exact (Option.some.inj hj).symm

/-! ### Places -/

/-- What a union chooses between. -/
def values : List RuleKind := Primitive.all.map container

/-- What may be required. -/
def wrappable : List RuleKind := .union :: values

/-- What may stand at the root, at a property and at an element. -/
def bindable : List RuleKind := .required :: wrappable

/-- What may stand inside a container, beside a mismatch rule. -/
def checksOf : Primitive → List RuleKind
  | .object => [.prop]
  | .array => [.bound .min, .bound .max, .item]
  | .string => [.equal, .bound .min, .bound .max, .pattern, .any]
  | .number => [.equal, .bound .min, .bound .max, .bound .less, .bound .more, .range, .any]
  | .boolean => [.equal, .any]
  | .date => [.equal, .dateBound .notBefore, .dateBound .notAfter, .dateBound .before, .dateBound .after,
      .between, .any]

/-- What may stand inside a container. -/
def childrenOf (p : Primitive) : List RuleKind := .mismatch :: checksOf p

/-- Whether alternatives may stand inside a container. -/
def hasAlternatives (p : Primitive) : Bool := p != .object && p != .array

/-- What may be an alternative inside a container. -/
def alternativesOf (p : Primitive) : List RuleKind := (checksOf p).filter (· != .any)

end RuleKind

end RuleTree
