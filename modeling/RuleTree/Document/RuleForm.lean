import RuleTree.Document.Form
import RuleTree.Rule.Kind

/-!
# The form of rule documents

The schema that `rule_from_dict` checks: every node names one of the kinds, and has the fields of its kind and no others. The
nodes inside it have the form again.
-/

namespace RuleTree.Document.Form

/-! ### Fields -/

def message : Form := .type [.string, .null]

def rules : Form := .all [.type [.array], .elements]

/-- A mapping of a kind with some fields and no others. -/
def record (fields : List (String × Form)) : Form :=
  .all [.properties (("kind", .any) :: fields), .closed ("kind" :: fields.map Prod.fst)]

/-! ### Fields of kinds -/

def valueCheck : Form := record [("value", .any), ("message", message)]

def rangeCheck : Form := record [("min", .any), ("max", .any), ("message", message)]

def betweenCheck : Form := record [("begin", .any), ("end", .any), ("message", message)]

def patternCheck : Form := record [("regex", .type [.string]), ("message", message)]

def mismatchCheck : Form := record [("message", message)]

def composite : Form := record [("rules", rules)]

def prop : Form := record [("name", .type [.string, .integer]), ("rules", rules)]

def required : Form := record [("rules", rules), ("message", message)]

/-! ### Nodes -/

/-- A form for the nodes of some kinds. -/
def whenKind (kinds : List String) (form : Form) : Form :=
  .whenThen (.all [.has "kind", .properties [("kind", .oneOf kinds)]]) form

/-- What the fields of a node must be, by its kind. -/
def branches : List (List String × Form) := [
  (["equal", "min", "max", "less", "more", "before", "after", "begin", "end"], valueCheck),
  (["range"], rangeCheck),
  (["between"], betweenCheck),
  (["pattern"], patternCheck),
  (["mismatch"], mismatchCheck),
  (["any", "union", "object", "string", "number", "boolean", "date", "array", "item"], composite),
  (["prop"], prop),
  (["required"], required)]

def kinds : List String := [
  "equal", "min", "max", "less", "more", "range", "pattern",
  "before", "after", "begin", "end", "between", "mismatch",
  "any", "union", "object", "string", "number", "boolean",
  "date", "array", "prop", "item", "required"]

/-- The form of a node, and of every node inside it. -/
def rule : Form :=
  .all [.type [.object], .has "kind", .properties [("kind", .oneOf kinds)], .all (branches.map fun b => whenKind b.1 b.2)]

/-- The errors of a document. -/
def ruleErrors (v : Value) : List FormError := rule.errors rule v

end RuleTree.Document.Form
