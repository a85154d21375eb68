import RuleTree.Value.Display

/-!
# Forms

What a value must look like, in the keywords of JSON Schema, and the errors of a value: every place at which it does not
look as its form says. A form may refer to one root form, which the elements of a list must have; documents nest in this
way.
-/

namespace RuleTree.Document

/-! ### Types -/

/-- The types that forms name. Lists only are arrays; a number is an integer if it is whole, in whatever form it is written.
-/
inductive FormType
  | null
  | string
  | integer
  | array
  | object
deriving DecidableEq

namespace FormType

def holds : FormType → Value → Bool
  | .null, .null => true
  | .string, .str _ => true
  | .integer, .number (.int _) => true
  | .integer, .number (.float x) => x.isInteger
  | .array, .list _ => true
  | .object, .map _ => true
  | _, _ => false

def words : FormType → String
  | .null => "null"
  | .string => "a string"
  | .integer => "an integer"
  | .array => "a list"
  | .object => "an object"

/-- The types that a field may have, in words; that it may be null is not told. -/
def wording (wanted : List FormType) : String := " or ".intercalate ((wanted.filter (· != .null)).map words)

end FormType

/-! ### Errors -/

/-- A step into a value. -/
inductive Segment
  | field (name : String)
  | element (index : Nat)
deriving DecidableEq

/-- The keyword that a value fails. -/
inductive FormFault
  | type (wanted : List FormType)
  | oneOf
  | required
  | unknown (known : List String)

/-- A failure: the way to the value that fails, and the keyword. -/
structure FormError where
  path : List Segment
  fault : FormFault
  value : Value

/-- The error as seen from one level further out. -/
def FormError.under (s : Segment) (e : FormError) : FormError := { e with path := s :: e.path }

def isNamed (names : List String) (key : Value) : Bool := key.str?.any names.contains

/-- Whether an error can be told: telling it shows the value that fails, or the keys that are unknown. -/
def FormError.isWritable (e : FormError) : Bool :=
  match e.fault, e.value with
  | .type _, v => v.isWritable
  | .oneOf, v => v.isWritable
  | .unknown known, .map entries => entries.all fun entry => isNamed known entry.1 || entry.1.isWritable
  | _, _ => true

/-! ### Forms -/

inductive Form
  | any
  | type (wanted : List FormType)
  /-- One of some texts. -/
  | oneOf (texts : List String)
  | has (name : String)
  | properties (fields : List (String × Form))
  /-- A mapping has no keys but some names. -/
  | closed (names : List String)
  /-- The elements of a list have the root form. -/
  | elements
  | all (forms : List Form)
  | whenThen (test consequence : Form)

theorem sizeOf_lookup_lt {key v : Value} {entries : List (Value × Value)} (h : Value.lookup key entries = some v) :
    sizeOf v < sizeOf entries := by
  unfold Value.lookup at h
  obtain ⟨e, he, rfl⟩ := Option.map_eq_some_iff.mp h
  have hmem : sizeOf e < sizeOf entries := List.sizeOf_lt_of_mem (List.mem_of_find?_eq_some he)
  have hpair : sizeOf e = 1 + sizeOf e.1 + sizeOf e.2 := rfl
  omega

namespace Form

mutual

/-- The errors of a value. A keyword that is about mappings or lists says nothing of other values. -/
def errors (root : Form) : Form → Value → List FormError
  | .any, _ => []
  | .type wanted, v => if wanted.any (·.holds v) then [] else [⟨[], .type wanted, v⟩]
  | .oneOf texts, v => if v.str?.any texts.contains then [] else [⟨[], .oneOf, v⟩]
  | .has name, .map entries =>
    if (Value.lookup (.str name) entries).isSome then [] else [⟨[], .required, .map entries⟩]
  | .has _, _ => []
  | .properties fields, .map entries => errorsOfFields root fields entries
  | .properties _, _ => []
  | .closed names, .map entries =>
    if entries.all fun e => isNamed names e.1 then [] else [⟨[], .unknown names, .map entries⟩]
  | .closed _, _ => []
  | .elements, .list items => errorsOfElements root 0 items
  | .elements, _ => []
  | .all forms, v => errorsOfAll root forms v
  | .whenThen test consequence, v => if (errors root test v).isEmpty then errors root consequence v else []
termination_by form v => (sizeOf v, sizeOf form)

/-- The errors of the fields that a mapping has. -/
def errorsOfFields (root : Form) : List (String × Form) → List (Value × Value) → List FormError
  | [], _ => []
  | (name, form) :: fields, entries =>
    (match _h : Value.lookup (.str name) entries with
      | some v => (errors root form v).map (·.under (.field name))
      | none => []) ++ errorsOfFields root fields entries
termination_by fields entries => (sizeOf entries, sizeOf fields)
decreasing_by
  · exact .left _ _ (sizeOf_lookup_lt _h)
  · refine .right _ ?_
    rw [List.cons.sizeOf_spec]
    omega

/-- The errors of elements, which count from an index. -/
def errorsOfElements (root : Form) (index : Nat) : List Value → List FormError
  | [] => []
  | v :: items => (errors root root v).map (·.under (.element index)) ++ errorsOfElements root (index + 1) items
termination_by items => (sizeOf items, 0)

def errorsOfAll (root : Form) : List Form → Value → List FormError
  | [], _ => []
  | form :: forms, v => errors root form v ++ errorsOfAll root forms v
termination_by forms v => (sizeOf v, sizeOf forms)

end

end Form

end RuleTree.Document
