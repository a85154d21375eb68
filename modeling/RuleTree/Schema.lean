import RuleTree.Document.Writer
import RuleTree.Json.Writer
import RuleTree.Validator.OfTree
import RuleTree.Validator.Run

/-!
# Schemas

A rule tree together with its validator (`Schema`): it is checked once and used for any number of values.
-/

namespace RuleTree

structure Schema where
  tree : Tree
  validator : Validator

/-- Why a schema is not written: its tree has no document, or the document has no text. -/
inductive SchemaWriteFault
  | document (fault : Document.WriteFault)
  | text (fault : Json.WriteFault)

namespace Schema

variable [Text.CharacterNames]

def ofTree (t : Tree) : Except BuildError Schema := (Validator.ofTree t).map (⟨t, ·⟩)

def validate (s : Schema) (v : Value) : Verdict := s.validator.run v

/-- Whether a value is accepted or rejected, if it is either. -/
def isValid (s : Schema) (v : Value) : Except RunError Bool :=
  match s.validate v with
  | .ok _ => .ok true
  | .error (.invalid _) => .ok false
  | .error e => .error e

def toDocument (s : Schema) : Except Document.WriteFault Value := Document.write s.tree

/-- The document of the tree as text, on one line or indented; an indentation below zero is none. -/
def toJson (s : Schema) (indent : Option Int) : Except SchemaWriteFault String :=
  match s.toDocument with
  | .error fault => .error (.document fault)
  | .ok v => (Json.ofValue (indent.map Int.toNat) v).mapError .text

/-- The text of a schema: its document, indented by two. -/
def text (s : Schema) : Except SchemaWriteFault String := s.toJson (some 2)

def kindName (s : Schema) : String := (s.tree.kind?.map RuleKind.name).getD ""

/-- A short name for a schema. -/
def label (s : Schema) : String := "Schema('" ++ s.kindName ++ "')"

theorem tree_of_ofTree {t : Tree} {s : Schema} (h : ofTree t = .ok s) : s.tree = t := by
  unfold ofTree at h
  cases hv : Validator.ofTree t with
  | error e => simp [hv, Except.map] at h
  | ok v =>
    simp only [hv, Except.map, Except.ok.injEq] at h
    rw [← h]

end Schema

end RuleTree
