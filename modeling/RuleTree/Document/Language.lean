import RuleTree.Rule.Error
import RuleTree.Value.Display

/-!
# The language of rule documents

The documents that `rule_from_dict` takes. One is a mapping with the name of a kind and the fields that rules of this kind
have. This module says which fields these are, what they may hold, and what is wrong with a mapping that does not keep to it.
-/

namespace RuleTree.Document

/-- The fields of a kind, besides the kind itself. -/
def fieldsOf : RuleKind → List String
  | .equal => ["value", "message"]
  | .bound _ => ["value", "message"]
  | .dateBound _ => ["value", "message"]
  | .range => ["min", "max", "message"]
  | .between => ["begin", "end", "message"]
  | .pattern => ["regex", "message"]
  | .mismatch => ["message"]
  | .prop => ["name", "rules"]
  | .required => ["rules", "message"]
  | .any => ["rules"]
  | .union => ["rules"]
  | .container _ => ["rules"]
  | .item => ["rules"]

/-! ### What fields hold -/

def isTextOrNull : Value → Bool
  | .null => true
  | .str _ => true
  | _ => false

def isText : Value → Bool
  | .str _ => true
  | _ => false

/-- Texts and whole numbers, in whatever form they are whole. -/
def isName : Value → Bool
  | .str _ => true
  | .number (.int _) => true
  | .number (.float x) => x.isInteger
  | _ => false

def isList : Value → Bool
  | .list _ => true
  | _ => false

/-- A field whose form is laid down: its name, its form, and the form in words. -/
structure Field where
  name : String
  holds : Value → Bool
  wanted : String

/-- The fields of laid down form, in the order in which they are looked at. -/
def typedFields : List Field := [
  ⟨"message", isTextOrNull, "a string"⟩,
  ⟨"name", isName, "a string or an integer"⟩,
  ⟨"regex", isText, "a string"⟩,
  ⟨"rules", isList, "a list"⟩]

/-! ### Faults of one mapping -/

def kindOf (entries : List (Value × Value)) : Except SchemaFault RuleKind :=
  match Value.lookup (.str "kind") entries with
  | none => .error .missingKind
  | some v =>
    match v.str?.bind RuleKind.ofName? with
    | some k => .ok k
    | none => .error (.unexpected v.display)

def isKnown (k : RuleKind) (key : Value) : Bool :=
  match key with
  | .str s => s == "kind" || (fieldsOf k).contains s
  | _ => false

def unknownKeys (k : RuleKind) (entries : List (Value × Value)) : List String :=
  ((entries.filter fun e => !isKnown k e.1).map fun e => e.1.display).mergeSort fun a b => a ≤ b

/-- What is wrong with the fields of a mapping: unknown ones, else the first of a wrong form. -/
def fieldFault? (k : RuleKind) (entries : List (Value × Value)) : Option SchemaFault :=
  match unknownKeys k entries with
  | [] => typedFields.findSome? fun f =>
    match Value.lookup (.str f.name) entries with
    | some v => if f.holds v then none else some (.fieldType k f.name f.wanted)
    | none => none
  | unknown => some (.unknownProperties k unknown)

/-- The kind of a mapping that is well formed by itself. -/
def wellFormedKind (entries : List (Value × Value)) : Except SchemaFault RuleKind :=
  match kindOf entries with
  | .error f => .error f
  | .ok k =>
    match fieldFault? k entries with
    | some f => .error f
    | none => .ok k

end RuleTree.Document
