import RuleTree.Document.Language
import RuleTree.Rule.Tree

/-!
# Writing rule documents

The document that writes a rule tree (`rule_to_dict`): the kind first, then the fields. A missing message is left out, and a
date is written as text.
-/

namespace RuleTree.Document

/-- Why a tree has no document: a row of children is none, or a child is no rule. -/
inductive WriteFault
  | notRow (typeName : String)
  | notRule (typeName : String)

def WriteFault.message : WriteFault → String
  | .notRow t => "'" ++ t ++ "' object is not iterable"
  | .notRule t => "'" ++ t ++ "' object has no attribute 'kind'"

/-- The names of types that are told together with the family they belong to. -/
def families : List (String × String) := [
  ("date", "datetime"), ("datetime", "datetime"), ("time", "datetime"), ("timedelta", "datetime"),
  ("Decimal", "decimal"), ("Pattern", "re")]

/-- The name of a value's type with its family. -/
def fullTypeName (v : Value) : String :=
  match families.lookup v.typeName with
  | some family => family ++ "." ++ v.typeName
  | none => v.typeName

/-! ### Fields -/

/-- A field as documents hold it. -/
def written : Value → Value
  | .date d => .str d.iso
  | .moment m => .str m.iso
  | v => v

def kindField (k : Option RuleKind) : String × Value := ("kind", .str ((k.map RuleKind.name).getD ""))

def messageField : Value → List (String × Value)
  | .null => []
  | m => [("message", written m)]

/-- The fields of a leaf, after kind and message. -/
def checkFields : Check → List (String × Value)
  | .equal v => [("value", written v)]
  | .bound _ v => [("value", written v)]
  | .range min max => [("min", written min), ("max", written max)]
  | .pattern regex => [("regex", written regex)]
  | .dateBound _ v => [("value", written v)]
  | .between first last => [("begin", written first), ("end", written last)]
  | .mismatch => []
  | .kindless _ (some v) => [("value", written v)]
  | .kindless _ none => []

/-- The fields of a rule with children, after kind and children. -/
def groupFields : Group → List (String × Value)
  | .prop name => [("name", written name)]
  | .required message => messageField message
  | _ => []

/-- The children that a value stands for which is no row of rules: at best none. -/
def noChildren : Value → Except WriteFault Unit
  | .str s => if s.isEmpty then .ok () else .error (.notRule "str")
  | .list [] => .ok ()
  | .tuple [] => .ok ()
  | .map [] => .ok ()
  | .list (v :: _) => .error (.notRule (fullTypeName v))
  | .tuple (v :: _) => .error (.notRule (fullTypeName v))
  | .map ((k, _) :: _) => .error (.notRule (fullTypeName k))
  | v => .error (.notRow (fullTypeName v))

def groupDocument (g : Group) (children : List Value) : Value :=
  Value.ofFields (kindField g.kind? :: ("rules", .list children) :: groupFields g)

mutual

def write : Tree → Except WriteFault Value
  | .stray v => .error (.notRule (fullTypeName v))
  | .check c message => .ok (Value.ofFields (kindField c.kind? :: messageField message ++ checkFields c))
  | .group g _ rules => (writeItems rules).map (groupDocument g)
  | .unlisted g rules => (noChildren rules).map fun _ => groupDocument g []

def writeItems : List Tree → Except WriteFault (List Value)
  | [] => .ok []
  | t :: ts => do
    let v ← write t
    return v :: (← writeItems ts)

end

end RuleTree.Document
