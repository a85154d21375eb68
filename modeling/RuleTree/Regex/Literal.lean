import RuleTree.Regex.Search

/-!
# Pattern literals

Patterns as rules carry them: a regular expression between slashes, and letters for its switches (`parse_pattern`); and the
literal of an expression (`pattern_to_literal`). An expression without the letter for many lines is about the whole text, so
its sign for the end of a line is taken as the very end (`_strict_end_anchors`).
-/

namespace RuleTree

/-! ### The two parts of a literal -/

namespace PatternLiteral

def splitAtLastSlash : List Char → Option (List Char × List Char)
  | [] => none
  | c :: cs =>
    match splitAtLastSlash cs with
    | some (before, after) => some (c :: before, after)
    | none => if c = '/' then some ([], cs) else none

def dropLineBreak : List Char → List Char
  | [] => []
  | ['\n'] => []
  | c :: cs => c :: dropLineBreak cs

def isLetter (c : Char) : Bool := 'a' ≤ c && c ≤ 'z'

/-- The expression and the letters of a literal. -/
def split (literal : List Char) : Option (List Char × List Char) :=
  match literal with
  | '/' :: rest =>
    match splitAtLastSlash rest with
    | some (body, after) =>
      let letters := dropLineBreak after
      if !body.isEmpty && letters.all isLetter then some (body, letters) else none
    | none => none
  | _ => none

/-- The switch of a letter. Two letters are known and switch nothing. -/
def flag? : Char → Option Regex.Flags
  | 'i' => some { ignoreCase := true }
  | 'm' => some { multiline := true }
  | 's' => some { dotAll := true }
  | 'u' => some {}
  | 'g' => some {}
  | _ => none

/-- The switches of the letters, or the first letter that is unknown. -/
def flags : List Char → Except Char Regex.Flags
  | [] => .ok {}
  | c :: cs =>
    match flag? c with
    | none => .error c
    | some f => (flags cs).map f.union

/-- Reads the sign for the end of a line as the very end: every such sign that is not escaped and not in a set. -/
def strictEnds (inSet escaped : Bool) : List Char → List Char
  | [] => []
  | c :: cs =>
    if escaped then c :: strictEnds inSet false cs
    else if c = '\\' then c :: strictEnds inSet true cs
    else if inSet then c :: strictEnds (c != ']') false cs
    else if c = '[' then c :: strictEnds true false cs
    else if c = '$' then '\\' :: 'Z' :: strictEnds false false cs
    else c :: strictEnds false false cs

theorem splitAtLastSlash_eq_none_iff (cs : List Char) : splitAtLastSlash cs = none ↔ '/' ∉ cs := by
  induction cs with
  | nil => simp [splitAtLastSlash]
  | cons c cs ih =>
    simp only [splitAtLastSlash, List.mem_cons, not_or]
    split
    · next h => simp [h] at ih; simp [ih]
    · next h =>
      have hcs := ih.1 h
      by_cases hc : c = '/'
      · simp [hc]
      · simp [hc, hcs, Ne.symm hc]

theorem append_of_splitAtLastSlash {cs before after : List Char} (h : splitAtLastSlash cs = some (before, after)) :
    cs = before ++ '/' :: after := by
  induction cs generalizing before with
  | nil => simp [splitAtLastSlash] at h
  | cons c cs ih =>
    simp only [splitAtLastSlash] at h
    split at h
    · next b a hs =>
      simp only [Option.some.injEq, Prod.mk.injEq] at h
      obtain ⟨rfl, rfl⟩ := h
      simp [ih hs]
    · split at h
      · next hc =>
        simp only [Option.some.injEq, Prod.mk.injEq] at h
        obtain ⟨rfl, rfl⟩ := h
        simp [hc]
      · simp at h

end PatternLiteral

/-! ### Patterns -/

/-- A pattern: the expression as it is searched for, as text and as tree. -/
structure Pattern where
  body : String
  regex : Regex

/-- What is wrong with a pattern literal. -/
inductive PatternFault
  | malformed (literal : String)
  | unsupportedFlag (letter : Char)
  | expression (body : List Char) (fault : Regex.Fault)

namespace PatternFault

def message : PatternFault → String
  | .malformed literal => "'" ++ literal ++ "' is not a /pattern/flags literal"
  | .unsupportedFlag letter => "unsupported flag '" ++ letter.toString ++ "'"
  | .expression body fault => fault.message body

/-- Whether a number in the expression is out of bounds. -/
def isOverflow : PatternFault → Bool
  | .expression _ .countTooLarge => true
  | .expression _ .codeTooLarge => true
  | _ => false

end PatternFault

variable [Text.CharacterNames]

namespace Pattern

def read (literal : String) : Except PatternFault Pattern :=
  match PatternLiteral.split literal.toList with
  | none => .error (.malformed literal)
  | some (body, letters) =>
    match PatternLiteral.flags letters with
    | .error letter => .error (.unsupportedFlag letter)
    | .ok flags =>
      let body := if flags.multiline then body else PatternLiteral.strictEnds false false body
      match Regex.read body flags with
      | .error fault => .error (.expression body fault)
      | .ok regex => .ok ⟨String.ofList body, regex⟩

def search (p : Pattern) (s : String) : Bool := p.regex.search s

end Pattern

/-! ### Writing -/

/-- An expression that its author compiled: over texts with some switches, or over bytes. -/
inductive Expression
  | text (source : String) (flags : Regex.Flags)
  | bytes (source : String)

/-- Why an expression has no literal. -/
inductive ExpressionFault
  | bytes
  | flags

def ExpressionFault.message : ExpressionFault → String
  | .bytes => "only str patterns can be written as /pattern/flags literals"
  | .flags => "only the IGNORECASE, MULTILINE and DOTALL flags can be written in a /pattern/flags literal"

/-- The switches of an expression over texts: those given and those that its own text turns on for all of it. -/
def Expression.flagsInEffect (source : String) (given : Regex.Flags) : Regex.Flags :=
  match Regex.read source.toList given with
  | .ok regex => regex.flags
  | .error _ => given

/-- The literal of an expression. -/
def Expression.literal : Expression → Except ExpressionFault String
  | .bytes _ => .error .bytes
  | .text source given =>
    let f := flagsInEffect source given
    if f.verbose || f.ascii || f.template then .error .flags
    else
      let letter (on : Bool) (l : String) : String := if on then l else ""
      .ok ("/" ++ source ++ "/" ++ letter f.ignoreCase "i" ++ letter f.multiline "m" ++ letter f.dotAll "s")

end RuleTree
