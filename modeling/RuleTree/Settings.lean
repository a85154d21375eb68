import RuleTree.Text.Case

/-!
# Settings

How much is logged and whether output is coloured, from the variables of the environment (`RuleforgeConfig.from_env`).
-/

namespace RuleTree

structure Settings where
  /-- The name of the level of logging. -/
  logLevel : String := "WARNING"
  color : Bool := true
deriving DecidableEq

namespace Settings

def offWords : List String := ["0", "false", "no", "off"]

/-- The names of levels of logging and what they stand for. -/
def levels : List (String × Nat) :=
  [("CRITICAL", 50), ("FATAL", 50), ("ERROR", 40), ("WARN", 30), ("WARNING", 30), ("INFO", 20), ("DEBUG", 10), ("NOTSET", 0)]

/-- The level for a name that stands for none. -/
def defaultLevel : Nat := 30

def ofEnvironment (env : List (String × String)) : Settings where
  logLevel := Text.upper ((env.lookup "RULEFORGE_LOG_LEVEL").getD "WARNING")
  color :=
    !offWords.contains (Text.lower ((env.lookup "RULEFORGE_COLOR").getD "1")) &&
      ((env.lookup "NO_COLOR").getD "").isEmpty

def level (s : Settings) : Nat := (levels.lookup s.logLevel).getD defaultLevel

end Settings

end RuleTree
