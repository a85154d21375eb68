import RuleTree.Text.Quoted
import RuleTree.Text.Similar

/-!
# Usage

The forms that a command line can have, what can be wrong with its words, and the texts that say so. Main statement: without
options nothing is asked of the words, and they stay what they are.
-/

namespace RuleTree.Command

/-- An option that takes a value: its name, what the value is, and what it is for. -/
structure OptionForm where
  name : String
  metavar : String
  purpose : String

/-- The form of a command: the words that call it, what it is for, its options, what it is given, and how that is written in
the line of its usage. -/
structure Form where
  call : String
  purpose : String
  options : List OptionForm
  arguments : List String
  pattern : String

/-- What is wrong with the words of a command line. -/
inductive UsageFault
  | unknownOption (name : String) (similar : List String)
  | noValue (name : String)
  | needlessValue (name : String)
  | notInteger (name text : String)
  | noArgument (name : String)
  | noFile (argument path : String)
  | directory (argument path : String)
  | surplus (words : List String)
  | unknownCommand (name : String)
  | noCommand
deriving DecidableEq

namespace UsageFault

def suggestion : List String → String
  | [] => ""
  | [one] => " Did you mean " ++ one ++ "?"
  | many => " (Possible options: " ++ ", ".intercalate many ++ ")"

def message : UsageFault → String
  | .unknownOption name similar => "No such option: " ++ name ++ suggestion similar
  | .noValue name => "Option '" ++ name ++ "' requires an argument."
  | .needlessValue name => "Option '" ++ name ++ "' does not take a value."
  | .notInteger name text =>
    "Invalid value for '" ++ name ++ "': " ++ Text.quoted text ++ " is not a valid integer."
  | .noArgument name => "Missing argument '" ++ name ++ "'."
  | .noFile argument path =>
    "Invalid value for '" ++ argument ++ "': File " ++ Text.quoted path ++ " does not exist."
  | .directory argument path =>
    "Invalid value for '" ++ argument ++ "': File " ++ Text.quoted path ++ " is a directory."
  | .surplus words =>
    "Got unexpected extra argument" ++ (if words.length = 1 then "" else "s") ++ " (" ++ " ".intercalate words ++ ")"
  | .unknownCommand name => "No such command " ++ Text.quoted name ++ "."
  | .noCommand => "Missing command."

end UsageFault

namespace Form

/-- The option that every command has: it asks for help. -/
def help : String := "--help"

def usage (f : Form) : String := "Usage: " ++ f.call ++ " [OPTIONS] " ++ f.pattern

/-- What is shown for a fault: the usage, how to get help, and the fault. -/
def report (f : Form) (fault : UsageFault) : String :=
  f.usage ++ "\nTry '" ++ f.call ++ " " ++ help ++ "' for help.\n\nError: " ++ fault.message ++ "\n"

/-- The options and their purposes, side by side. -/
def optionRows (f : Form) : List (String × String) :=
  f.options.map (fun o => (o.name ++ " " ++ o.metavar, o.purpose)) ++ [(help, "Show this message and exit.")]

def rows (title : String) (rows : List (String × String)) : String :=
  let width := (rows.map fun r => r.1.length).foldl max 0
  let line (r : String × String) : String := "  " ++ String.ofList (r.1.toList.rightpad (width + 2) ' ') ++ r.2 ++ "\n"
  "\n" ++ title ++ ":\n" ++ String.join (rows.map line)

def helpText (f : Form) : String := f.usage ++ "\n\n  " ++ f.purpose ++ "\n" ++ rows "Options" f.optionRows

end Form

/-! ### Words -/

/-- The words of a command line: options with their values in their order, and all others. -/
structure Words where
  options : List (String × String) := []
  others : List String := []
deriving DecidableEq

namespace Words

def addOption (name value : String) (w : Words) : Words := { w with options := (name, value) :: w.options }

def addOther (word : String) (w : Words) : Words := { w with others := word :: w.others }

/-- The word up to an equals sign and, if there is one, what follows it. -/
def splitValue (word : String) : String × Option String :=
  let name := word.toList.takeWhile (· != '=')
  match word.toList.drop name.length with
  | [] => (word, none)
  | _ :: value => (String.ofList name, some (String.ofList value))

/-- Whether a word is written like an option. -/
def isOption (word : String) : Bool := word.toList.head? == some '-' && 1 < word.length

/-- The fault of a word that is written like an option and is none. Behind a single dash, letters are options one by one. -/
def unknown (f : Form) (word : String) : UsageFault :=
  match word.toList with
  | '-' :: '-' :: _ =>
    let name := (splitValue word).1
    .unknownOption name (Text.similarOnes (f.options.map OptionForm.name ++ [Form.help]) name)
  | chars => .unknownOption (String.ofList (chars.take 2)) []

/-- Sorts the words of a command. Two dashes end the options; if options must come first, so does any other word. -/
def read (f : Form) (mixed : Bool) : List String → Except UsageFault Words
  | [] => .ok {}
  | word :: words =>
    if word == "--" then .ok { others := words }
    else if isOption word then
      let (name, value) := splitValue word
      if name == Form.help then
        if value.isSome then .error (.needlessValue name) else (read f mixed words).map (addOption name "")
      else if (f.options.map OptionForm.name).contains name then
        match value with
        | some v => (read f mixed words).map (addOption name v)
        | none =>
          match words with
          | v :: rest => (read f mixed rest).map (addOption name v)
          | [] => .error (.noValue name)
      else .error (unknown f word)
    else if mixed then (read f mixed words).map (addOther word)
    else .ok { others := word :: words }

def option? (w : Words) (name : String) : Option String := (w.options.reverse.lookup name)

def asksForHelp (w : Words) : Bool := (w.option? Form.help).isSome

/-- Words that are not written like options are kept as they are. -/
theorem read_of_no_option (f : Form) (words : List String) (h : ∀ w ∈ words, isOption w = false) :
    read f true words = .ok { others := words } := by
  induction words with
  | nil => simp [read]
  | cons word words ih =>
    have hw := h word List.mem_cons_self
    have hdashes : (word == "--") = false := by
      cases he : word == "--" with
      | false => rfl
      | true =>
        rw [beq_iff_eq] at he
        rw [he] at hw
        exact absurd hw (by decide)
    have ht := ih fun w hm => h w (List.mem_cons_of_mem _ hm)
    simp [read, hw, hdashes, ht, Except.map, addOther]

end Words

end RuleTree.Command
