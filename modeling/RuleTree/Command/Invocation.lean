import RuleTree.Command.Usage
import RuleTree.File.Directory
import RuleTree.Number.Decimal
import RuleTree.Text.Digit

/-!
# Invocations

What a command line asks for: one of three commands (`check`, `lint`, `show`), the files that it is given, and the settings in
front of it (`cli`). A file is taken only if one stands at its name.
-/

namespace RuleTree

/-- What can be asked for: to check data, to check a rule tree alone, or to print its normal form. -/
inductive Command
  | check (rule data : Path)
  | lint (rule : Path)
  | print (rule : Path) (indent : Int)
deriving DecidableEq

/-- A command and the level of logging that was asked for. -/
structure Invocation where
  logLevel : Option String
  command : Command
deriving DecidableEq

namespace Command

/-! ### Forms -/

def logLevelOption : OptionForm :=
  ⟨"--log-level", "TEXT", "Logging level (overrides RULEFORGE_LOG_LEVEL)."⟩

def indentOption : OptionForm := ⟨"--indent", "INTEGER", "JSON indentation.  [default: 2]"⟩

def groupForm : Form where
  call := "cli"
  purpose := "Ruleforge: declarative data validation CLI."
  options := [logLevelOption]
  arguments := []
  pattern := "COMMAND [ARGS]..."

def formOf (name purpose : String) (options : List OptionForm) (arguments : List String) : Form where
  call := groupForm.call ++ " " ++ name
  purpose
  options
  arguments
  pattern := " ".intercalate arguments

def checkForm : Form :=
  formOf "check" "Validate DATA_FILE against the rule tree in RULE_FILE." [] ["RULE_FILE", "DATA_FILE"]

def lintForm : Form := formOf "lint" "Compile RULE_FILE and report schema errors." [] ["RULE_FILE"]

def printForm : Form :=
  formOf "show" "Print the rule tree in RULE_FILE as normalized JSON." [indentOption] ["RULE_FILE"]

/-! ### Reading -/

/-- Why a command line is not carried out. -/
inductive Stop
  | help (text : String)
  | noWords
  | usage (form : Form) (fault : UsageFault)
  | unnamed

/-- The file that an argument names. It has to exist and must not be a directory. -/
def existing (files : Files) (form : Form) (argument name : String) : Except Stop Path :=
  match files name with
  | .file _ => .ok (Path.ofText name)
  | .unnamed => .error .unnamed
  | .unreadable .directory => .error (.usage form (.directory argument name))
  | .unreadable _ => .error (.usage form (.noFile argument name))

/-- The next argument of a command, and the words behind it. -/
def argument (files : Files) (form : Form) (name : String) : List String → Except Stop (Path × List String)
  | [] => .error (.usage form (.noArgument name))
  | word :: words => (existing files form name word).map (·, words)

/-- Refuses words that a command does not ask for. -/
def nothingElse (form : Form) (words : List String) : Except Stop Unit :=
  if words.isEmpty then .ok () else .error (.usage form (.surplus words))

def wordsOf (form : Form) (words : List String) : Except Stop Words := do
  let w ← (Words.read form true words).mapError (.usage form)
  if w.asksForHelp then throw (.help form.helpText) else return w

def indentation (words : Words) : Except Stop Int :=
  match words.option? indentOption.name with
  | none => .ok 2
  | some text =>
    match Text.integer? text Decimal.maxDigits with
    | some n => .ok n
    | none => .error (.usage printForm (.notInteger indentOption.name text))

def readCheck (files : Files) (words : List String) : Except Stop Command := do
  let w ← wordsOf checkForm words
  let (rule, rest) ← argument files checkForm "RULE_FILE" w.others
  let (data, rest) ← argument files checkForm "DATA_FILE" rest
  nothingElse checkForm rest
  return .check rule data

def readLint (files : Files) (words : List String) : Except Stop Command := do
  let w ← wordsOf lintForm words
  let (rule, rest) ← argument files lintForm "RULE_FILE" w.others
  nothingElse lintForm rest
  return .lint rule

/-- A bad indentation is reported before a bad file. -/
def readPrint (files : Files) (words : List String) : Except Stop Command := do
  let w ← wordsOf printForm words
  let indent ← indentation w
  let (rule, rest) ← argument files printForm "RULE_FILE" w.others
  nothingElse printForm rest
  return .print rule indent

/-- The commands: name, form, and how their words are read. -/
def commands : List (String × Form × (Files → List String → Except Stop Command)) := [
  ("check", checkForm, readCheck), ("lint", lintForm, readLint), ("show", printForm, readPrint)]

def overview : String := groupForm.helpText ++ Form.rows "Commands" (commands.map fun c => (c.1, c.2.1.purpose))

end Command

/-- What a command line asks for. No words at all ask for nothing. -/
def Invocation.read (files : Files) (words : List String) : Except Command.Stop Invocation := do
  let w ← (Command.Words.read Command.groupForm false words).mapError (.usage Command.groupForm)
  if words.isEmpty then throw .noWords
  else if w.asksForHelp then throw (.help Command.overview)
  else
    match w.others with
    | [] => throw (.usage Command.groupForm .noCommand)
    | name :: rest =>
      match Command.commands.lookup name with
      | none => throw (.usage Command.groupForm (.unknownCommand name))
      | some (_, read) => return { logLevel := w.option? Command.logLevelOption.name, command := ← read files rest }

namespace Command

end Command

end RuleTree
