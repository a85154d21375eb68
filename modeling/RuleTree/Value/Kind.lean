/-!
# Kinds of values

The six kinds that a container can ask for, the kind of what is absent, and for everything else the name of its type. Kinds
are told apart by name, so a type that happens to be called like a kind is of that kind (`kind_of`).
-/

namespace RuleTree

/-- The kinds that a container rule can ask for. -/
inductive Primitive
  | object
  | string
  | number
  | boolean
  | date
  | array
deriving DecidableEq

namespace Primitive

def all : List Primitive := [.object, .string, .number, .boolean, .date, .array]

def name : Primitive → String
  | .object => "object"
  | .string => "string"
  | .number => "number"
  | .boolean => "boolean"
  | .date => "date"
  | .array => "array"

theorem mem_all (p : Primitive) : p ∈ all := by
  cases p <;> decide

end Primitive

inductive Kind
  | null
  | primitive (p : Primitive)
  | other (name : String)
deriving DecidableEq

namespace Kind

def name : Kind → String
  | .null => "null"
  | .primitive p => p.name
  | .other n => n

def ofName (n : String) : Kind :=
  if n = "null" then .null
  else
    match Primitive.all.find? (·.name = n) with
    | some p => .primitive p
    | none => .other n

theorem ofName_name_primitive (p : Primitive) : ofName p.name = .primitive p := by
  cases p <;> decide

theorem name_ofName (n : String) : (ofName n).name = n := by
  unfold ofName
  split
  · next h => exact h.symm
  · split
    · next p hp =>
      have := List.find?_some hp
      simpa [name] using this
    · rfl

end Kind

end RuleTree
