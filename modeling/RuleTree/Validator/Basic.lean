import RuleTree.Validator.Error
import RuleTree.Regex.Literal

/-!
# Validators

Rules made ready for use, one sort of validator for each class (`EqualValidator`, `BoundValidator`, `ContainerValidator` and so
on): limits are numbers, dates are instants, patterns are expressions, and every child stands where it means something.
-/

namespace RuleTree

/-- A validator. The messages are those that the author of the rule gave. -/
inductive Validator
  /-- Equal to a value of one kind. -/
  | equal (kind : Kind) (expected : Value) (message : Option String)
  /-- At the same millisecond as a date. -/
  | equalMoment (stamp : Int) (display : String) (message : Option String)
  | bound (bound : Bound) (subject : Subject) (limit : Number) (message : Option String)
  | range (low high : Number) (message : Option String)
  | pattern (pattern : Pattern) (literal : String) (message : Option String)
  | dateBound (bound : DateBound) (stamp : Int) (display : String) (message : Option String)
  | between (first last : Int) (display : String) (message : Option String)
  /-- At least one of several. -/
  | any (alternatives : List Validator)
  /-- Of one kind, and every check holds; the message is for values of other kinds. -/
  | container (kind : Primitive) (checks : List Validator) (mismatch : Option String)
  /-- Of one of several kinds, each with its own container. -/
  | union (branches : List (Primitive × Validator)) (mismatch : Option String)
  | prop (name : Key) (inner : Validator)
  | item (inner : Validator)
  | required (inner : Option Validator) (message : Option String)

namespace Validator

mutual

/-- Whether two validators hold the same constraints in the same words. -/
def same : Validator → Validator → Bool
  | .equal k v m, .equal l w n => k == l && v.eqv w && m == n
  | .equalMoment s d m, .equalMoment t e n => s == t && d == e && m == n
  | .bound b s x m, .bound c t y n => b == c && s == t && x.eqv y && m == n
  | .range x y m, .range u v n => x.eqv u && y.eqv v && m == n
  | .pattern _ l m, .pattern _ k n => l == k && m == n
  | .dateBound b s d m, .dateBound c t e n => b == c && s == t && d == e && m == n
  | .between x y d m, .between u v e n => x == u && y == v && d == e && m == n
  | .any vs, .any ws => sameRow vs ws
  | .container p vs m, .container q ws n => p == q && sameRow vs ws && m == n
  | .union bs m, .union cs n => sameBranches bs cs && m == n
  | .prop k v, .prop l w => k == l && v.same w
  | .item v, .item w => v.same w
  | .required none m, .required none n => m == n
  | .required (some v) m, .required (some w) n => v.same w && m == n
  | _, _ => false

def sameRow : List Validator → List Validator → Bool
  | [], [] => true
  | v :: vs, w :: ws => v.same w && sameRow vs ws
  | _, _ => false

def sameBranches : List (Primitive × Validator) → List (Primitive × Validator) → Bool
  | [], [] => true
  | (p, v) :: bs, (q, w) :: cs => p == q && v.same w && sameBranches bs cs
  | _, _ => false

end

end Validator

end RuleTree
