import RuleTree.Document.Parser
import RuleTree.File.Directory
import RuleTree.Json.Reader
import RuleTree.Text.Utf8
import RuleTree.Yaml.Reader

/-!
# Documents in files

Reading the value that a file holds, in JSON if its name says so and else in YAML, and the rule tree that it describes, as
`load_document` and `load_rule_file` do. What reads the two languages is given; the usual readers are those of this library.
-/

namespace RuleTree

/-- Why a file has no value: it cannot be read, is malformed, is no text, or writes a value that does not exist. A value beyond
those of this library is none for it either: one that holds itself, or a text with one half of a pair of codes. -/
inductive LoadFault
  | unreadable (path : Path) (reason : Unreadable)
  | malformed (path : Path) (report : String)
  | unnamed
  | undecodable (fault : Text.Utf8.Fault)
  | tooManyDigits (digits : Nat)
  | valueless (fault : Yaml.Fault)
  | beyond

namespace LoadFault

/-- Whether the fault is reported as one of the file. -/
def isReported : LoadFault → Bool
  | .unreadable _ _ => true
  | .malformed _ _ => true
  | _ => false

def message : LoadFault → String
  | .unreadable path reason => path.text ++ ": " ++ reason.message
  | .malformed path report => path.text ++ ": cannot parse file: " ++ report
  | .unnamed => "embedded null byte"
  | .undecodable fault => fault.message
  | .tooManyDigits digits => Decimal.tooLong digits
  | .valueless fault => fault.message
  | .beyond => Yaml.Fault.recursive.message

end LoadFault

/-- What reads the texts of files, by their names. -/
structure Readers where
  json : Path → List Char → Except LoadFault Value
  yaml : Path → List Char → Except LoadFault Value

def Readers.value (readers : Readers) (path : Path) (text : List Char) : Except LoadFault Value :=
  if path.isJson then readers.json path text else readers.yaml path text

namespace Files

/-- The text with every line break as a line feed. -/
def withLineFeeds : List Char → List Char
  | [] => []
  | '\r' :: '\n' :: cs => '\n' :: withLineFeeds cs
  | c :: cs => (if c = '\r' then '\n' else c) :: withLineFeeds cs

def text (files : Files) (path : Path) : Except LoadFault (List Char) :=
  match files path.text with
  | .unreadable reason => .error (.unreadable path reason)
  | .unnamed => .error .unnamed
  | .file bytes =>
    match Text.Utf8.decode bytes with
    | .error fault => .error (.undecodable fault)
    | .ok s => .ok (withLineFeeds s.toList)

def ofJson (path : Path) (text : List Char) : Except LoadFault Value :=
  (Json.read text).mapError fun
    | .malformed reason position => .malformed path (reason.report text position)
    | .tooManyDigits digits => .tooManyDigits digits

def ofYaml (path : Path) (text : List Char) : Except LoadFault Value :=
  (Yaml.read text).mapError fun
    | .malformed => .malformed path Yaml.Fault.malformed.message
    | .recursive => .beyond
    | fault => .valueless fault

/-- The readers of this library. For half of a pair of codes they take the character that stands for it. -/
def readers : Readers := { json := ofJson, yaml := ofYaml }

/-- The value in a file (`load_document`). -/
def document (files : Files) (readers : Readers) (path : Path) : Except LoadFault Value := do
  readers.value path (← files.text path)

/-- Why a file holds no rule tree. -/
inductive RuleFault
  | load (fault : LoadFault)
  | document (fault : Document.ParseFault)

/-- The rule tree in a file (`load_rule_file`). -/
def tree (files : Files) (readers : Readers) (path : Path) : Except RuleFault Tree :=
  match files.document readers path with
  | .error fault => .error (.load fault)
  | .ok v => (Document.parse v).mapError .document

theorem withLineFeeds_eq (cs : List Char) (h : '\r' ∉ cs) : withLineFeeds cs = cs := by
  induction cs with
  | nil => rfl
  | cons c cs ih =>
    simp only [List.mem_cons, not_or] at h
    have hc : c ≠ '\r' := fun e => h.1 e.symm
    rw [withLineFeeds]
    · simp [hc, ih h.2]
    · intro rest hr
      simp_all

end Files

end RuleTree
