import RuleTree.Document.Language
import RuleTree.Document.Reader
import RuleTree.Document.RuleForm

/-!
# Parsing rule documents

`rule_from_dict`: a document is held against the form of rule documents first. If it has errors, each of them is put into
words, and the first in the order of their paths is told, at the node that it is in (`_to_schema_error`, `_describe`); else the
rule tree is built (`_build`). Neither may meet what it does not expect.
-/

namespace RuleTree.Document

/-- Why parsing cannot go on. -/
inductive Stuck
  /-- A key or an index with nothing behind it. -/
  | missing
  /-- A value of a type that does not allow what is done with it. -/
  | mistyped
  /-- Two paths, one of which names a field where the other counts an element. -/
  | unordered
  /-- An error for which there are no words. -/
  | unworded

namespace Stuck

def message : Stuck → String
  | .missing => "no such key"
  | .mistyped => "unexpected type"
  | .unordered => "names and indices have no order"
  | .unworded => "unexpected error"

end Stuck

/-! ### The order of errors -/

namespace Segment

/-- Whether two steps are of one sort, so that they have an order. -/
def alike : Segment → Segment → Bool
  | .field _, .field _ => true
  | .element _, .element _ => true
  | _, _ => false

/-- The order of steps; only steps of one sort are ever compared. -/
def lt : Segment → Segment → Bool
  | .field a, .field b => a < b
  | .element i, .element j => i < j
  | .field _, .element _ => true
  | .element _, .field _ => false

end Segment

/-- Whether two paths have an order: where they part, they go on alike. -/
def comparable : List Segment → List Segment → Bool
  | s :: p, t :: q => if s = t then comparable p q else s.alike t
  | _, _ => true

/-- Whether a path comes before another: it is a front of it, or goes to an earlier place where they part. -/
def before : List Segment → List Segment → Bool
  | _, [] => false
  | [], _ :: _ => true
  | s :: p, t :: q => if s = t then before p q else s.lt t

def sortErrors (errors : List FormError) : Except Stuck (List FormError) :=
  if errors.all fun e => errors.all fun f => comparable e.path f.path then
    .ok (errors.mergeSort fun e f => !before f.path e.path)
  else .error .unordered

/-! ### Errors in words -/

/-- A fault of a node with a field: about rules of its kind, or of what stands for the kind. -/
def faultOfKind (kind : Value) (known : RuleKind → SchemaFault) (words : String) : SchemaFault :=
  match kind.str?.bind RuleKind.ofName? with
  | some k => known k
  | none => .worded (SchemaFault.invalid kind.display ++ words)

def kindValue (node : Value) : Value :=
  match node with
  | .map entries => Value.property (.text "kind") entries
  | _ => .null

/-- What the failure of a value says of the node that it is in, from which some steps lead to the value. -/
def describe (fault : FormFault) (value node : Value) (steps : List Segment) : Except Stuck SchemaFault :=
  match fault, steps with
  | .type _, [] => .ok (.notRule node.typeName)
  | .oneOf, [.field "kind"] => .ok (.unexpected value.display)
  | .required, _ => .ok .missingKind
  | .unknown known, _ =>
    match node with
    | .map entries =>
      let names := ((entries.filter fun entry => !isNamed known entry.1).map fun entry => entry.1.display).mergeSort
        fun a b => a ≤ b
      .ok (faultOfKind (kindValue node) (.unknownProperties · names) ("unknown properties " ++ ", ".intercalate names))
    | _ => .error .mistyped
  | .type wanted, [.field name] =>
    let wording := FormType.wording wanted
    .ok (faultOfKind (kindValue node) (.fieldType · name wording) (SchemaFault.property name ++ " must be " ++ wording))
  | _, _ => .error .unworded

/-- The failure of a value in the words of the node that it is in. The path goes from a node on: through lists of rules to
the nodes inside it, and at last to a field. -/
def locate (fault : FormFault) (value node : Value) : List Segment → Except Stuck SchemaError
  | .field "rules" :: .element i :: steps =>
    match node with
    | .map entries =>
      match Value.lookup (.str "rules") entries with
      | none => .error .missing
      | some (.list items) =>
        match items[i]? with
        | none => .error .missing
        | some child =>
          (locate fault value child steps).map (·.within { kind := (kindValue node).display, index := some (i + 1) })
      | some _ => .error .mistyped
    | _ => .error .mistyped
  | steps => (describe fault value node steps).map fun fault => { fault }

/-! ### Building -/

/-- Whether rules of a kind have a row of children. -/
def hasRules (k : RuleKind) : Bool := (fieldsOf k).contains "rules"

mutual

/-- The rule that a node writes. A rule takes no fields but those of its kind. -/
def build : Value → Except Stuck Tree
  | .map entries =>
    match (Value.property (.text "kind") entries).str?.bind RuleKind.ofName? with
    | none => .error .missing
    | some k => do
      let rules ←
        if hasRules k then
          match _h : Value.lookup (.str "rules") entries with
          | none => .ok []
          | some (.list items) => buildAll items
          | some (.tuple items) => buildAll items
          | some _ => .error .mistyped
        else .ok []
      if entries.all fun e => isNamed ("kind" :: fieldsOf k) e.1 then
        .ok (treeOf k (fun name => Value.property (.text name) entries) rules)
      else .error .mistyped
  | _ => .error .mistyped
termination_by v => sizeOf v
decreasing_by
  · have hitems := sizeOf_lookup_lt _h
    rw [Value.list.sizeOf_spec] at hitems
    rw [Value.map.sizeOf_spec]
    omega
  · have hitems := sizeOf_lookup_lt _h
    rw [Value.tuple.sizeOf_spec] at hitems
    rw [Value.map.sizeOf_spec]
    omega

def buildAll : List Value → Except Stuck (List Tree)
  | [] => .ok []
  | v :: vs => do
    let tree ← build v
    return tree :: (← buildAll vs)
termination_by vs => sizeOf vs

end

/-! ### Parsing -/

/-- Why a document is not parsed. -/
inductive ParseFault
  | schema (error : SchemaError)
  /-- An error shows an integer that has too many digits to be written. -/
  | unwritable
  | stuck (cause : Stuck)

/-- Parses a document. What its first error shows in the end, all errors have shown before. -/
def parse (v : Value) : Except ParseFault Tree :=
  let errors := Form.ruleErrors v
  if errors.all FormError.isWritable then
    match sortErrors errors with
    | .error cause => .error (.stuck cause)
    | .ok [] => (build v).mapError .stuck
    | .ok (e :: _) =>
      match locate e.fault e.value v e.path with
      | .error cause => .error (.stuck cause)
      | .ok error => .error (.schema error)
  else .error .unwritable

theorem sortErrors_nil : sortErrors [] = .ok [] := by
  rw [sortErrors, List.mergeSort_nil]
  rfl

end RuleTree.Document
