import RuleTree.Command.Run
import RuleTree.Text.CommonNames

/-!
# The command line

Reads the files that the words name and the variables of the environment, and shows what the command leaves behind.
-/

namespace RuleTree.Main

def entry (name : String) : IO Entry := do
  if name.contains '\x00' then return .unnamed
  try
    let bytes ← IO.FS.readBinFile name
    return .file bytes.toList
  catch
    | .noFileOrDirectory .. => return .unreadable .missing
    | .inappropriateType .. => return .unreadable .directory
    | .resourceExhausted .. => return .unreadable .nameTooLong
    | _ => return .unreadable .missing

/-- What stands at the names that some words can be, as they are and in their plain form. -/
def files (words : List String) : IO Files := do
  let names := words ++ words.map fun w => (Path.ofText w).text
  let entries ← names.mapM fun n => return (n, ← entry n)
  return fun name => (entries.lookup name).getD (.unreadable .missing)

def variableNames : List String := ["RULEFORGE_LOG_LEVEL", "RULEFORGE_COLOR", "NO_COLOR"]

def environment : IO (List (String × String)) :=
  variableNames.filterMapM fun name => return (← IO.getEnv name).map (name, ·)

end RuleTree.Main

open RuleTree.Text.CommonNames

def main (words : List String) : IO UInt32 := do
  let report := RuleTree.Command.run RuleTree.Files.readers (← RuleTree.Main.files words) (← RuleTree.Main.environment) words
  IO.print report.output
  IO.eprint report.errors
  match report.crash with
  | some cause => IO.eprintln cause.message
  | none => pure ()
  return UInt32.ofNat report.code
