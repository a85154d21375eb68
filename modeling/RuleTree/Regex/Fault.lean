import RuleTree.Regex.Syntax
import RuleTree.Number.Decimal
import RuleTree.Text.Quoted

/-!
# Faults in regular expressions

What can be wrong with the text of a regular expression, and how it is reported.
-/

namespace RuleTree.Regex

inductive Reason
  | unfinishedEscape
  | badEscape (escape : List Char)
  | incompleteEscape (escape : List Char)
  | octalTooLarge (escape : List Char)
  | missingBrace
  | missing (what : String)
  | unterminatedName (stop : Char)
  | undefinedCharacter (name : String)
  | openGroup
  | lookbehindGroup
  | invalidGroup (number : Nat)
  | unterminatedSet
  | badRange (first last : List Char)
  | reversedCounts
  | nothingToRepeat
  | multipleRepeat
  | unexpectedEnd
  | badName (name : String)
  | unknownName (name : String)
  | redefinedName (name : String) (number earlier : Nat)
  | unknownExtension (text : List Char)
  | unterminatedComment
  | unterminatedGroup
  | badGroupNumber
  | tooManyBranches
  | misplacedFlags
  | localeFlag
  | clashingFlags
  | unknownFlag
  | missingFlagsEnd
  | missingFlag
  | missingColon
  | globalFlagOn
  | globalFlagOff
  | alphabetFlagOff
  | flagOnAndOff
  | unbalanced
  | longLookbehind
  | variableLookbehind
  | templateRepetition (greed : Greed)

inductive Fault
  | misread (reason : Reason) (position : Option Nat)
  | clashingAlphabets
  | countTooLong (digits : Nat)
  | countTooLarge
  | codeTooLarge
  | unfinished

def Greed.label : Greed → String
  | .greedy => "MAX_REPEAT"
  | .lazy => "MIN_REPEAT"
  | .possessive => "POSSESSIVE_REPEAT"

def Reason.message : Reason → String
  | .unfinishedEscape => "bad escape (end of pattern)"
  | .badEscape e => "bad escape " ++ String.ofList e
  | .incompleteEscape e => "incomplete escape " ++ String.ofList e
  | .octalTooLarge e => "octal escape value " ++ String.ofList e ++ " outside of range 0-0o377"
  | .missingBrace => "missing \x7b"
  | .missing what => "missing " ++ what
  | .unterminatedName stop => "missing " ++ stop.toString ++ ", unterminated name"
  | .undefinedCharacter name => "undefined character name " ++ Text.quoted name
  | .openGroup => "cannot refer to an open group"
  | .lookbehindGroup => "cannot refer to group defined in the same lookbehind subpattern"
  | .invalidGroup n => "invalid group reference " ++ Decimal.natural n
  | .unterminatedSet => "unterminated character set"
  | .badRange first last => "bad character range " ++ String.ofList first ++ "-" ++ String.ofList last
  | .reversedCounts => "min repeat greater than max repeat"
  | .nothingToRepeat => "nothing to repeat"
  | .multipleRepeat => "multiple repeat"
  | .unexpectedEnd => "unexpected end of pattern"
  | .badName name => "bad character in group name " ++ Text.quoted name
  | .unknownName name => "unknown group name " ++ Text.quoted name
  | .redefinedName name n m =>
    "redefinition of group name " ++ Text.quoted name ++ " as group " ++ Decimal.natural n ++
      "; was group " ++ Decimal.natural m
  | .unknownExtension text => "unknown extension " ++ String.ofList text
  | .unterminatedComment => "missing ), unterminated comment"
  | .unterminatedGroup => "missing ), unterminated subpattern"
  | .badGroupNumber => "bad group number"
  | .tooManyBranches => "conditional backref with more than two branches"
  | .misplacedFlags => "global flags not at the start of the expression"
  | .localeFlag => "bad inline flags: cannot use 'L' flag with a str pattern"
  | .clashingFlags => "bad inline flags: flags 'a', 'u' and 'L' are incompatible"
  | .unknownFlag => "unknown flag"
  | .missingFlagsEnd => "missing -, : or )"
  | .missingFlag => "missing flag"
  | .missingColon => "missing :"
  | .globalFlagOn => "bad inline flags: cannot turn on global flag"
  | .globalFlagOff => "bad inline flags: cannot turn off global flag"
  | .alphabetFlagOff => "bad inline flags: cannot turn off flags 'a', 'u' and 'L'"
  | .flagOnAndOff => "bad inline flags: flag turned on and off"
  | .unbalanced => "unbalanced parenthesis"
  | .longLookbehind => "looks too much behind"
  | .variableLookbehind => "look-behind requires fixed-width pattern"
  | .templateRepetition greed => "internal: unsupported template operator " ++ greed.label

/-- The line and the column of a place, both from one. -/
def lineAndColumn (pattern : List Char) (position : Nat) : Nat × Nat :=
  let before := pattern.take position
  (before.count '\n' + 1, (before.reverse.takeWhile (· != '\n')).length + 1)

/-- Where a place is; in expressions of several lines also by line and column. -/
def place (pattern : List Char) (position : Nat) : String :=
  let (line, column) := lineAndColumn pattern position
  " at position " ++ Decimal.natural position ++
    if pattern.contains '\n' then
      " (line " ++ Decimal.natural line ++ ", column " ++ Decimal.natural column ++ ")"
    else ""

def Fault.message (pattern : List Char) : Fault → String
  | .misread reason position => reason.message ++ (position.map (place pattern)).getD ""
  | .clashingAlphabets => "ASCII and UNICODE flags are incompatible"
  | .countTooLong digits => Decimal.tooLong digits
  | .countTooLarge => "the repetition number is too large"
  | .codeTooLarge => "Python int too large to convert to C int"
  | .unfinished => "the expression is nested too deeply"

end RuleTree.Regex
