import RuleTree.Number.Basic
import RuleTree.Rule.Kind
import RuleTree.Value.Basic

/-!
# Rejected values

Why a value is rejected, in the words of the rule, and where inside the value the trouble lies (`ValidationError`, `Location`).
-/

namespace RuleTree

/-- What a bound is about. -/
inductive Subject
  | number
  | stringLength
  | arrayLength
deriving DecidableEq

namespace Subject

def label : Subject → String
  | .number => "value"
  | .stringLength => "string length"
  | .arrayLength => "array length"

def primitive : Subject → Primitive
  | .number => .number
  | .stringLength => .string
  | .arrayLength => .array

/-- The subject of bounds inside a container. -/
def ofPrimitive? : Primitive → Option Subject
  | .number => some .number
  | .string => some .stringLength
  | .array => some .arrayLength
  | _ => none

end Subject

def Bound.demand : Bound → String
  | .min => "must be greater or equal to"
  | .max => "must be less or equal to"
  | .less => "must be less than"
  | .more => "must be greater than"

def DateBound.demand : DateBound → String
  | .before => "date must be earlier than"
  | .after => "date must be later than"
  | .notBefore => "date must be later than or equal to"
  | .notAfter => "date must be earlier than or equal to"

/-- Why a value is rejected. -/
inductive Cause
  /-- The rule's author worded it. -/
  | worded (text : String)
  | missing
  | unequal (expected : String)
  | bound (subject : Subject) (bound : Bound) (limit : Number)
  | range (low high : Number)
  | pattern (literal : String)
  | dateBound (bound : DateBound) (boundary : String)
  | between (boundaries : String)
  | kind (wanted : Primitive) (found : String)
  | noBranch (kinds : List Primitive) (found : Kind)
  | noAlternative (failures : List String)
  | noMatch (failures : List String)

/-- Whether a cause can be told. What it quotes has been put into words before, except for the limits of bounds. -/
def Cause.isWritable : Cause → Bool
  | .bound _ _ limit => limit.isWritable
  | .range low high => low.isWritable && high.isWritable
  | _ => true

/-- A row of failures, each after its number. -/
def numbered (mark : String) (failures : List String) : List String :=
  failures.mapIdx fun i f => mark ++ Decimal.natural (i + 1) ++ ". " ++ f

def Cause.text : Cause → String
  | .worded text => text
  | .missing => "value is required"
  | .unequal expected => "value must be equal to " ++ expected
  | .bound s b limit => s.label ++ " " ++ b.demand ++ " " ++ limit.text
  | .range x y => "value must be between " ++ x.text ++ " and " ++ y.text
  | .pattern literal => "string must match expression: " ++ literal
  | .dateBound b boundary => b.demand ++ " " ++ boundary
  | .between boundaries => "date must be between " ++ boundaries
  | .kind wanted found => "unexpected type: require '" ++ wanted.name ++ "' but found '" ++ found ++ "'"
  | .noBranch kinds found =>
    "unexpected type: expected one of '" ++ ", ".intercalate (kinds.map Primitive.name) ++
      "' but found '" ++ found.name ++ "'"
  | .noAlternative failures => "not eligible: (" ++ ", ".intercalate (numbered "" failures) ++ ")"
  | .noMatch failures => "no rule matched: [" ++ "; ".intercalate (numbered "R" failures) ++ "]"

/-- A cause, unless the author of the rule gave words for it. -/
def Cause.unless (message : Option String) (cause : Cause) : Cause :=
  match message with
  | some text => .worded text
  | none => cause

inductive Place
  | property
  | item
deriving DecidableEq

def Place.name : Place → String
  | .property => "property"
  | .item => "item"

structure Location where
  place : Place
  key : Key
deriving DecidableEq

/-- Whether a step can be told; the name of a property may be too long an integer. Positions in a row never are. -/
def Location.isWritable (l : Location) : Bool :=
  match l.place with
  | .item => true
  | .property => l.key.isWritable

def Location.message (l : Location) : String :=
  match l.place with
  | .item => "Invalid item [" ++ l.key.display ++ "]: "
  | .property => "Invalid property \"" ++ l.key.display ++ "\": "

/-- A rejection: its cause and the way to the part of the value that has it. -/
structure ValidationError where
  cause : Cause
  path : List Location := []

namespace ValidationError

def reason (e : ValidationError) : String := e.cause.text

/-- The error as seen from one level further out. -/
def locatedAt (l : Location) (e : ValidationError) : ValidationError := { e with path := l :: e.path }

def message (e : ValidationError) : String := String.join (e.path.map Location.message) ++ e.reason

end ValidationError

/-- How a run ends that does not accept: with a rejection, or with an integer that is to be told and has too many digits to be
written. -/
inductive RunError
  | invalid (error : ValidationError)
  | unwritable

namespace RunError

/-- The error as seen from one level further out. The way is told at every level, so that each step must be writable. -/
def locatedAt (l : Location) : RunError → RunError
  | .invalid e => if l.isWritable then .invalid (e.locatedAt l) else .unwritable
  | .unwritable => .unwritable

def message : RunError → String
  | .invalid e => e.message
  | .unwritable => Decimal.unwritable

end RunError

end RuleTree
