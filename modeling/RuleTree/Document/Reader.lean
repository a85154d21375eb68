import RuleTree.Document.Language
import RuleTree.Rule.Tree

/-!
# Reading rule documents

The rule tree that a document writes, found in one walk. A document that is wrong somewhere is reported at the first wrong
mapping, each mapping being looked at before those inside it. Parsing, which collects all errors and sorts them, comes to the
same result as `rule_from_dict`.
-/

namespace RuleTree.Document

/-- The rule of a kind with given fields and children; an absent field is null. -/
def treeOf (k : RuleKind) (field : String → Value) (rules : List Tree) : Tree :=
  match k with
  | .equal => .check (.equal (field "value")) (field "message")
  | .bound b => .check (.bound b (field "value")) (field "message")
  | .range => .check (.range (field "min") (field "max")) (field "message")
  | .pattern => .check (.pattern (field "regex")) (field "message")
  | .dateBound b => .check (.dateBound b (field "value")) (field "message")
  | .between => .check (.between (field "begin") (field "end")) (field "message")
  | .mismatch => .check .mismatch (field "message")
  | .any => .group .any .fixed rules
  | .union => .group .union .fixed rules
  | .container p => .group (.container p) .fixed rules
  | .prop => .group (.prop (field "name")) .fixed rules
  | .item => .group .item .fixed rules
  | .required => .group (.required (field "message")) .fixed rules

mutual

def read : Value → Except SchemaError Tree
  | .map entries =>
    match wellFormedKind entries with
    | .error fault => .error { fault }
    | .ok k => do
      let rules ← readRules k entries
      return treeOf k (fun name => Value.property (.text name) entries) rules
  | v => .error { fault := .notRule v.typeName }

def readRules (k : RuleKind) : List (Value × Value) → Except SchemaError (List Tree)
  | [] => .ok []
  | (.str "rules", .list items) :: _ => readItems k 1 items
  | _ :: entries => readRules k entries

/-- The trees of the elements of a row, which count from an index. -/
def readItems (k : RuleKind) (index : Nat) : List Value → Except SchemaError (List Tree)
  | [] => .ok []
  | v :: vs => do
    let tree ← (read v).mapError (·.within { kind := k.name, index := some index })
    return tree :: (← readItems k (index + 1) vs)

end

theorem kind?_treeOf (k : RuleKind) (field : String → Value) (rules : List Tree) :
    (treeOf k field rules).kind? = some k := by
  cases k <;> rfl

end RuleTree.Document
