import RuleTree.Regex.Literal
import RuleTree.Rule.Kind
import RuleTree.Value.Basic

/-!
# Malformed rule trees

What can be wrong with a rule tree or with the document that writes one, and the trail that leads to the place (`SchemaError`
and its locations).
-/

namespace RuleTree

/-- What is wrong with a rule. -/
inductive SchemaFault
  | notRule (typeName : String)
  | unexpected (kind : String)
  | rulesNotList (kind : RuleKind)
  | duplicateMismatch
  | messageNotText (kind : RuleKind)
  | equalValue (container : String)
  | boundLimit (bound : Bound)
  | boundPlace (bound : Bound)
  | rangeLimit (field : String)
  | rangeOrder
  | patternText (cause : Option PatternFault)
  | dateField (kind : RuleKind) (field : String)
  | betweenOrder
  | anyPlace
  | fewAlternatives
  | duplicateType (kind : Primitive)
  | fewTypes
  | notOneRule (kind : RuleKind)
  | manyRules
  | propName
  | missingKind
  | unknownProperties (kind : RuleKind) (names : List String)
  | fieldType (kind : RuleKind) (field wanted : String)
  | worded (text : String)

namespace SchemaFault

/-- The opening words of a fault of a rule. -/
def invalid (kind : String) : String := "Invalid \"" ++ kind ++ "\" rule: "

def property (name : String) : String := "\"" ++ name ++ "\" property"

def message : SchemaFault → String
  | .notRule t => "Invalid rule: cannot be '" ++ t ++ "'"
  | .unexpected k => "Unexpected rule: '" ++ k ++ "'"
  | .rulesNotList k => invalid k.name ++ property "rules" ++ " must be a list"
  | .duplicateMismatch => "Duplicate \"mismatch\" rule: only one is allowed"
  | .messageNotText k => invalid k.name ++ property "message" ++ " must be a string"
  | .equalValue c => invalid "equal" ++ property "value" ++ " must be a valid " ++ c
  | .boundLimit b => invalid b.name ++ property "value" ++ " must be a valid number"
  | .boundPlace b => invalid b.name ++ "only applies to number, string or array values"
  | .rangeLimit f => invalid "range" ++ property f ++ " must be a valid number"
  | .rangeOrder => invalid "range" ++ property "min" ++ " must be less than " ++ property "max"
  | .patternText cause =>
    invalid "pattern" ++ "must provide a valid /pattern/flags string" ++
      (cause.map fun c => ": " ++ c.message).getD ""
  | .dateField k f => invalid k.name ++ property f ++ " must be a valid date"
  | .betweenOrder => invalid "between" ++ property "begin" ++ " must be earlier than " ++ property "end"
  | .anyPlace => invalid "any" ++ "only applies inside string, number, boolean or date rules"
  | .fewAlternatives => invalid "any" ++ "at least provide two sub rules"
  | .duplicateType p => "Duplicate type: '" ++ p.name ++ "' is declared more than once"
  | .fewTypes => invalid "union" ++ "at least provide two different types"
  | .notOneRule k => invalid k.name ++ "must provide exactly one sub rule"
  | .manyRules => invalid "required" ++ "accepts at most one sub rule"
  | .propName => invalid "prop" ++ "\"name\" must be a valid key or index"
  | .missingKind => "Invalid rule: " ++ property "kind" ++ " is required"
  | .unknownProperties k names => invalid k.name ++ "unknown properties " ++ ", ".intercalate names
  | .fieldType k f wanted => invalid k.name ++ property f ++ " must be " ++ wanted
  | .worded text => text

end SchemaFault

structure Step where
  kind : String
  index : Option Int := none
  name : Option Key := none
deriving DecidableEq

/-- Whether a step can be told; the name of a property may be too long an integer. Positions in a row never are. -/
def Step.isWritable (s : Step) : Bool := s.name.all Key.isWritable

def Step.message (s : Step) : String :=
  match s.name, s.index with
  | some n, _ => "Invalid \"" ++ s.kind ++ "\" rule of \"" ++ n.display ++ "\":"
  | none, some i => "Invalid \"" ++ s.kind ++ "\" rule (sub rule " ++ Decimal.integer i ++ "):"
  | none, none => "Invalid \"" ++ s.kind ++ "\" rule:"

/-- A fault of a rule and the steps that lead to it from the root. -/
structure SchemaError where
  fault : SchemaFault
  path : List Step := []

namespace SchemaError

def reason (e : SchemaError) : String := e.fault.message

def within (step : Step) (e : SchemaError) : SchemaError := { e with path := step :: e.path }

def message (e : SchemaError) : String :=
  "\n    > ".intercalate (e.path.map Step.message ++ [e.reason])

theorem path_within (s : Step) (e : SchemaError) : (e.within s).path = s :: e.path := rfl

end SchemaError

/-- Why no validator is built: the tree is malformed, an expression holds a number that is out of bounds, or an integer that is
to be told has too many digits to be written. -/
inductive BuildError
  | schema (error : SchemaError)
  | overflow (cause : PatternFault)
  | unwritable

namespace BuildError

def ofFault (fault : SchemaFault) : BuildError := .schema { fault }

/-- The error as seen from one level further out. The trail is told at every level, so that each step must be writable. -/
def within (step : Step) : BuildError → BuildError
  | .schema e => if step.isWritable then .schema (e.within step) else .unwritable
  | .overflow cause => .overflow cause
  | .unwritable => .unwritable

def message : BuildError → String
  | .schema e => e.message
  | .overflow cause => cause.message
  | .unwritable => Decimal.unwritable

end BuildError

def within {α : Type} (step : Step) (result : Except BuildError α) : Except BuildError α :=
  result.mapError (·.within step)

end RuleTree
