import RuleTree.Command.Invocation
import RuleTree.File.Document
import RuleTree.Schema
import RuleTree.Settings

/-!
# Running commands

What the commands `check`, `lint` and `show` show and the code they end with: 0 for success, 1 for data that are not valid, and
2 for files or words that are of no use. Faults that no command reports end it with the code 1 and leave their cause.
-/

namespace RuleTree.Command

/-- The cause of an end that no command reports. -/
inductive Crash
  | unnamed
  | load (fault : LoadFault)
  | parse (cause : Document.Stuck)
  | build (error : BuildError)
  | document (fault : Document.WriteFault)
  | text (fault : Json.WriteFault)
  | unwritable

def Crash.message : Crash → String
  | .unnamed => LoadFault.unnamed.message
  | .load fault => fault.message
  | .parse cause => cause.message
  | .build error => error.message
  | .document fault => fault.message
  | .text fault => fault.message
  | .unwritable => Decimal.unwritable

/-- What a command leaves behind. -/
structure Report where
  code : Nat := 0
  output : String := ""
  errors : String := ""
  crash : Option Crash := none

namespace Report

def behind (log : String) (r : Report) : Report := { r with errors := log ++ r.errors }

def ofCrash (c : Crash) : Report := { code := 1, crash := some c }

end Report

def invalidData : Nat := 1

def badInput : Nat := 2

/-! ### Showing texts -/

/-- A text in a style of the terminal, which is set by some codes. -/
def styled (s : Settings) (codes : List String) (text : String) : String :=
  if s.color then String.join (codes.map fun c => "\x1b[" ++ c ++ "m") ++ text ++ "\x1b[0m" else text

def succeed (s : Settings) (text : String) : Report := { output := styled s ["32", "1"] text ++ "\n" }

def fail (s : Settings) (text : String) (code : Nat) : Report := { code, errors := styled s ["31"] text ++ "\n" }

def log (s : Settings) (text : String) : String := if s.level ≤ 10 then "DEBUG " ++ text ++ "\n" else ""

/-! ### Commands -/

def kindName (t : Tree) : String := (t.kind?.map RuleKind.name).getD ""

def schemaFailure (s : Settings) (path : Path) (e : SchemaError) : Report :=
  fail s ("Schema error in " ++ path.text ++ ":\n" ++ e.message) badInput

def loadFailure (s : Settings) (fault : LoadFault) : Report :=
  if fault.isReported then fail s ("Error: " ++ fault.message) badInput else Report.ofCrash (.load fault)

/-- The rule tree in a file, or the report of what it lacks. -/
def loadTree (s : Settings) (readers : Readers) (files : Files) (path : Path) : Except Report (Tree × String) :=
  match files.tree readers path with
  | .ok t =>
    .ok (t, log s ("ruleforge.loader: Loaded " ++ Text.quoted (kindName t) ++ " rule tree from " ++ path.text))
  | .error (.load fault) => .error (loadFailure s fault)
  | .error (.document (.schema e)) => .error (schemaFailure s path e)
  | .error (.document (.stuck cause)) => .error (Report.ofCrash (.parse cause))
  | .error (.document .unwritable) => .error (Report.ofCrash .unwritable)

variable [Text.CharacterNames]

/-- The schema of the rule tree in a file, with the log, or the report of what it lacks. -/
def loadSchema (s : Settings) (readers : Readers) (files : Files) (path : Path) : Except Report (Schema × String) :=
  match loadTree s readers files path with
  | .error r => .error r
  | .ok (t, loaded) =>
    match Schema.ofTree t with
    | .error (.schema e) => .error ((schemaFailure s path e).behind loaded)
    | .error e => .error ((Report.ofCrash (.build e)).behind loaded)
    | .ok schema =>
      let compiled := "ruleforge.compiler.compiler: Compiled " ++ Text.quoted (kindName t) ++ " rule tree"
      .ok (schema, loaded ++ log s compiled)

def runCheck (s : Settings) (readers : Readers) (files : Files) (rule data : Path) : Report :=
  match loadSchema s readers files rule with
  | .error r => r
  | .ok (schema, lines) =>
    match files.document readers data with
    | .error fault => (loadFailure s fault).behind lines
    | .ok v =>
      match schema.validate v with
      | .error (.invalid e) => (fail s ("Invalid: " ++ e.message) invalidData).behind lines
      | .error .unwritable => (Report.ofCrash .unwritable).behind lines
      | .ok _ => (succeed s "Valid.").behind lines

def runLint (s : Settings) (readers : Readers) (files : Files) (rule : Path) : Report :=
  match loadSchema s readers files rule with
  | .error r => r
  | .ok (schema, lines) => (succeed s ("Rule tree is valid (root: " ++ schema.kindName ++ ").")).behind lines

/-- The normal form of a rule tree is its document; an indentation below zero is none. -/
def runPrint (s : Settings) (readers : Readers) (files : Files) (rule : Path) (indent : Int) : Report :=
  match loadTree s readers files rule with
  | .error r => r
  | .ok (t, lines) =>
    match Document.write t with
    | .error fault => (Report.ofCrash (.document fault)).behind lines
    | .ok v =>
      match Json.ofValue (some indent.toNat) v with
      | .error fault => (Report.ofCrash (.text fault)).behind lines
      | .ok text => { output := text ++ "\n", errors := lines }

def perform (s : Settings) (readers : Readers) (files : Files) : Command → Report
  | .check rule data => runCheck s readers files rule data
  | .lint rule => runLint s readers files rule
  | .print rule indent => runPrint s readers files rule indent

/-- The report of a command line that is not carried out. Who gives no words at all is shown which there are. -/
def Stop.report : Stop → Report
  | .help text => { output := text }
  | .noWords => { code := badInput, errors := overview }
  | .usage form fault => { code := badInput, errors := form.report fault }
  | .unnamed => Report.ofCrash .unnamed

def settings (env : List (String × String)) (i : Invocation) : Settings :=
  let s := Settings.ofEnvironment env
  match i.logLevel with
  | none => s
  | some level => if level.isEmpty then s else { s with logLevel := Text.upper level }

def run (readers : Readers) (files : Files) (env : List (String × String)) (words : List String) : Report :=
  match Invocation.read files words with
  | .error stop => stop.report
  | .ok i => perform (settings env i) readers files i.command

end RuleTree.Command
