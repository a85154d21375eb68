import RuleTree.Text.CodeUnit
import RuleTree.Value.Basic

/-!
# Writing JSON

The text of a value in JSON, on one line or indented, in ASCII alone.
-/

namespace RuleTree.Json

/-- Why a value has no JSON text: it, or a key in it, is of a type that JSON does not know, or an integer of too many digits. -/
inductive WriteFault
  | value (typeName : String)
  | key (typeName : String)
  | unwritable

def WriteFault.message : WriteFault → String
  | .value t => "Object of type " ++ t ++ " is not JSON serializable"
  | .key t => "keys must be str, int, float, bool or None, not " ++ t
  | .unwritable => Decimal.unwritable

/-! ### Texts -/

/-- Sixteen bits in four hexadecimal digits. -/
def escapeUnit (n : Nat) : List Char := '\\' :: 'u' :: (Nat.toDigits 16 n).leftpad 4 '0'

/-- A character inside quotes; beyond ASCII by one or two units of sixteen bits. -/
def escapeChar (c : Char) : List Char :=
  let n := c.toNat
  if c == '"' || c == '\\' then ['\\', c]
  else if c == '\n' then ['\\', 'n']
  else if c == '\r' then ['\\', 'r']
  else if c == '\t' then ['\\', 't']
  else if n == 8 then ['\\', 'b']
  else if n == 12 then ['\\', 'f']
  else if 32 ≤ n && n ≤ 126 then [c]
  else if n < 0x10000 then escapeUnit n
  else escapeUnit (Text.highHalf n) ++ escapeUnit (Text.lowHalf n)

def quote (s : String) : String := String.ofList ('"' :: s.toList.flatMap escapeChar ++ ['"'])

/-! ### Numbers -/

/-- Numbers are laid out as everywhere; those beyond all numbers have names. -/
def layout : Binary64.Layout := { Number.layout with infinity := "Infinity", nan := "NaN" }

/-- The text of what is neither row nor mapping. -/
def atom? : Value → Option String
  | .null => some "null"
  | .bool b => some (if b then "true" else "false")
  | .number (.int i) => some (Decimal.integer i)
  | .number (.float x) => some (x.format layout)
  | .str s => some (quote s)
  | _ => none

/-- The text of an atom that can be written; what is no atom has the given fault. -/
def writeAtom (v : Value) (fault : WriteFault) : Except WriteFault String :=
  match atom? v with
  | none => .error fault
  | some text => if v.isWritable then .ok text else .error .unwritable

/-- The text of a key: texts as they are, other atoms as texts. -/
def key (v : Value) : Except WriteFault String :=
  match v with
  | .str s => .ok (quote s)
  | v => (writeAtom v (.key v.typeName)).map quote

/-! ### Values -/

/-- A line break and the indentation of a level, if lines are indented at all. -/
def lineBreak (indent : Option Nat) (level : Nat) : String :=
  match indent with
  | none => ""
  | some n => String.ofList ('\n' :: List.replicate (n * level) ' ')

/-- Parts between brackets, one a line where lines are indented. -/
def bracket (indent : Option Nat) (level : Nat) (opening closing : String) (parts : List String) : String :=
  if parts.isEmpty then opening ++ closing
  else
    let mark := if indent.isSome then "," ++ lineBreak indent (level + 1) else ", "
    opening ++ lineBreak indent (level + 1) ++ mark.intercalate parts ++ lineBreak indent level ++ closing

mutual

def write (indent : Option Nat) (level : Nat) : Value → Except WriteFault String
  | .list vs => (writeItems indent (level + 1) vs).map (bracket indent level "[" "]")
  | .tuple vs => (writeItems indent (level + 1) vs).map (bracket indent level "[" "]")
  | .map es => (writeEntries indent (level + 1) es).map (bracket indent level "\x7b" "\x7d")
  | v => writeAtom v (.value v.typeName)

def writeItems (indent : Option Nat) (level : Nat) : List Value → Except WriteFault (List String)
  | [] => .ok []
  | v :: vs => do
    let text ← write indent level v
    return text :: (← writeItems indent level vs)

def writeEntries (indent : Option Nat) (level : Nat) : List (Value × Value) → Except WriteFault (List String)
  | [] => .ok []
  | (k, v) :: es => do
    let name ← key k
    let text ← write indent level v
    return (name ++ ": " ++ text) :: (← writeEntries indent level es)

end

def ofValue (indent : Option Nat) (v : Value) : Except WriteFault String := write indent 0 v

end RuleTree.Json
