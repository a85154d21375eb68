import RuleTree.Proofs.Regex.EndAnchors
import RuleTree.Proofs.Validator.Verdict
import RuleTree.Rule.Build
import RuleTree.Text.CommonNames

/-!
# Compiled expressions as patterns

A compiled expression becomes a rule through its text: the source between slashes, and the letters of the switches in effect.
Reading that literal again splits it at its last slash, gives the switches back, and reads the source as it was read first,
up to the ends of lines that a literal takes as ends of the text. So the rule decides as the expression with these ends
exchanged, and as the expression itself where they make no difference.
-/

namespace RuleTree

open Regex

/-! ### Literals as they are written -/

namespace PatternLiteral

theorem splitAtLastSlash_append {after : List Char} (h : '/' ∉ after) (before : List Char) :
    splitAtLastSlash (before ++ '/' :: after) = some (before, after) := by
  induction before with
  | nil => rw [List.nil_append, splitAtLastSlash, (splitAtLastSlash_eq_none_iff after).mpr h, if_pos rfl]
  | cons c before ih => rw [List.cons_append, splitAtLastSlash, ih]

theorem dropLineBreak_eq_self {cs : List Char} (h : '\n' ∉ cs) : dropLineBreak cs = cs := by
  induction cs with
  | nil => rfl
  | cons c cs ih =>
    obtain ⟨hc, hcs⟩ := not_or.mp fun hor => h (List.mem_cons.mpr hor)
    rw [dropLineBreak, ih hcs]
    rintro rfl rfl
    exact hc rfl

/-- A literal is split into what it was written of, slashes and line breaks in the expression or not. -/
theorem split_written {body letters : List Char} (hbody : body ≠ []) (hletters : letters.all isLetter = true) :
    split ('/' :: (body ++ '/' :: letters)) = some (body, letters) := by
  have hno : ∀ c, isLetter c = false → c ∉ letters := fun c hc hmem =>
    Bool.false_ne_true (hc.symm.trans (List.all_eq_true.mp hletters c hmem))
  rw [split, splitAtLastSlash_append (hno '/' (by decide))]
  simp [dropLineBreak_eq_self (hno '\n' (by decide)), hletters, hbody]

/-- The letters that stand for switches. -/
def lettersOf (f : Flags) : List Char :=
  (if f.ignoreCase then ['i'] else []) ++ (if f.multiline then ['m'] else []) ++ if f.dotAll then ['s'] else []

/-- The switches that letters can stand for. -/
def writable (f : Flags) : Flags where
  ignoreCase := f.ignoreCase
  multiline := f.multiline
  dotAll := f.dotAll

theorem lettersOf_isLetter (f : Flags) : (lettersOf f).all isLetter = true := by
  rw [lettersOf]
  cases f.ignoreCase <;> cases f.multiline <;> cases f.dotAll <;> decide

theorem flags_lettersOf (f : Flags) : flags (lettersOf f) = .ok (writable f) := by
  rw [lettersOf, writable]
  cases f.ignoreCase <;> cases f.multiline <;> cases f.dotAll <;> rfl

end PatternLiteral

open PatternLiteral

theorem Regex.Flags.withAlphabet?_eq_some_iff {f g : Flags} (hascii : g.ascii = false) :
    f.withAlphabet? = some g ↔ f.ascii = false ∧ g = { f with unicode := true } := by
  rw [withAlphabet?]
  cases hf : f.ascii with
  | false => simp [eq_comm]
  | true =>
    have hne : f ≠ g := fun h => by simp [← h, hf] at hascii
    cases f.unicode <;> simp [hne]

section Names

variable [Text.CharacterNames]

/-- An expression with a literal has only switches that letters can stand for; the literal is the source and the letters. -/
theorem Expression.toList_literal {source : String} {given : Flags} {r : Regex} {literal : String}
    (hread : Regex.read source.toList given = .ok r) (h : Expression.literal (.text source given) = .ok literal) :
    (r.flags.verbose = false ∧ r.flags.ascii = false ∧ r.flags.template = false) ∧
      literal.toList = '/' :: (source.toList ++ '/' :: lettersOf r.flags) := by
  have heffect : flagsInEffect source given = r.flags := by rw [flagsInEffect, hread]
  rw [Expression.literal, heffect] at h
  split at h
  · cases h
  · next hnone =>
    obtain rfl := Except.ok.inj h
    refine ⟨by simpa [and_assoc] using hnone, ?_⟩
    simp only [String.toList_append, lettersOf, List.append_assoc]
    cases r.flags.ignoreCase <;> cases r.flags.multiline <;> cases r.flags.dotAll <;> rfl

/-! ### Reading the source again -/

/-- An expression without the switches that letters cannot stand for was not given them either, and is read alike with the
switches of its letters; with its signs exchanged it is read as the exchanged tree. -/
theorem Regex.read_again {cs ds : List Char} {given : Flags} {r : Regex} {all : Bool}
    (hread : Regex.read cs given = .ok r)
    (hflags : r.flags.verbose = false ∧ r.flags.ascii = false ∧ r.flags.template = false)
    (htext : Exchange all { spaced := false } cs ds) :
    NormalRow r.body ∧ Regex.read ds (writable r.flags) = .ok ⟨r.flags, exchangeRow all r.body⟩ := by
  have hverbose : given.verbose = false := by
    obtain ⟨-, on, hon, -⟩ := read_exchanged ⟨false, given, given, rfl⟩ (.refl _ _) hread
    obtain ⟨-, hr⟩ := (Flags.withAlphabet?_eq_some_iff hflags.2.1).mp hon
    exact (Bool.or_eq_false_iff.mp ((congrArg Flags.verbose hr).symm.trans hflags.1)).1
  have hspaced : Exchange all { spaced := given.verbose } cs ds := hverbose ▸ htext
  obtain ⟨hnormal, on, hon, hagain⟩ := read_exchanged ⟨all, given, writable r.flags, hverbose.symm⟩ hspaced hread
  refine ⟨hnormal, hagain r.flags ?_ rfl⟩
  -- What the source turns on itself is in effect already.
  obtain ⟨-, hr⟩ := (Flags.withAlphabet?_eq_some_iff hflags.2.1).mp hon
  rw [hr] at hflags
  simp only [Flags.union, Bool.or_eq_false_iff] at hflags
  refine (Flags.withAlphabet?_eq_some_iff (by simp [hr, Flags.union, hflags])).mpr ?_
  simp [hr, writable, Flags.union, hflags]

namespace Pattern

/-- The literal of an expression is read as the expression with its ends of lines exchanged, if its text has any and letters
say nothing of many lines; otherwise as the expression itself. -/
theorem read_literal {source : String} {given : Flags} {r : Regex} {literal : String}
    (hread : Regex.read source.toList given = .ok r) (hliteral : Expression.literal (.text source given) = .ok literal)
    (hsource : source ≠ "")
    (hstep : r.flags.multiline = false → inStep { spaced := false } false source.toList = true) :
    NormalRow r.body ∧ ∃ p, read literal = .ok p ∧ p.regex = ⟨r.flags, exchangeRow (!r.flags.multiline) r.body⟩ := by
  obtain ⟨hflags, hlist⟩ := Expression.toList_literal hread hliteral
  have hsplit : split literal.toList = some (source.toList, lettersOf r.flags) := by
    rw [hlist]
    exact split_written (by simpa using hsource) (lettersOf_isLetter r.flags)
  have htext : Exchange (!r.flags.multiline) { spaced := false } source.toList
      (if r.flags.multiline then source.toList else strictEnds false false source.toList) := by
    cases hlines : r.flags.multiline with
    | true => exact .refl _ _
    | false => exact Exchange.strictEnds_iff_inStep.mpr (hstep hlines)
  obtain ⟨hnormal, hagain⟩ := Regex.read_again hread hflags htext
  refine ⟨hnormal, ?_⟩
  rw [read, hsplit]
  simp only [flags_lettersOf, show (writable r.flags).multiline = r.flags.multiline from rfl, hagain]
  exact ⟨_, rfl, rfl⟩

end Pattern

/-! ### Rules of compiled expressions -/

namespace Validator

/-- Alone in a rule for texts, a literal decides by its search. -/
theorem accepts_literal {literal : String} {p : Pattern} (hp : Pattern.read literal = .ok p) :
    ∃ d, ofTree (.container .string [.pattern (.str literal)]) = .ok d ∧ ∀ s, d.accepts (.str s) = p.search s := by
  let c : Check := .pattern (.str literal)
  have hkind : c.kind? = some .pattern := rfl
  have hformed : c.WellFormed .string := ⟨literal, p, rfl, hp⟩
  obtain ⟨d, hd⟩ := (exists_ofTree_alone_iff hkind (by decide) (by decide)).mpr ⟨hformed, rfl⟩
  refine ⟨d, hd, fun s => ?_⟩
  have hholds : c.Holds (.str s) ↔ p.search s = true := by
    simp [c, Check.Holds, hp]
  have hverdict := verdict_of_told hkind (by decide) (by decide) hformed rfl rfl (.string s) hholds
  rw [Check.verdict, Tree.verdict, hd] at hverdict
  exact accepts_of_decision hverdict

/-- The rule that a compiled expression is converted to decides on texts as the expression with its ends of lines exchanged,
and as the expression itself if it is about many lines, has no end of a line, or the text does not end in a line break and no
group turns on many lines. The source must not be empty, and the scanner must be in step with it. -/
theorem accepts_patternOf {source : String} {given : Flags} {r : Regex} {t : Tree}
    (hread : Regex.read source.toList given = .ok r) (hrule : Tree.patternOf (.text source given) = .ok t)
    (hsource : source ≠ "")
    (hstep : r.flags.multiline = false → inStep { spaced := false } false source.toList = true) :
    ∃ d, ofTree (.container .string [t]) = .ok d ∧
      (∀ s, d.accepts (.str s) =
        Regex.search ⟨r.flags, if r.flags.multiline then r.body else rowStrictly r.body⟩ s) ∧
      ∀ s, r.flags.multiline = true ∨ rowHasAnchor .lineEnd r.body = false ∨
        rowTurnsOnLines r.body = false ∧ s.toList.getLast? ≠ some '\n' → d.accepts (.str s) = r.search s := by
  obtain ⟨literal, hliteral, rfl⟩ : ∃ literal, Expression.literal (.text source given) = .ok literal ∧
      t = .pattern (.str literal) := by
    rw [Tree.patternOf] at hrule
    cases hl : Expression.literal (.text source given) with
    | error e => simp [hl, Except.map] at hrule
    | ok literal => exact ⟨literal, rfl, by simpa [hl, Except.map] using hrule.symm⟩
  obtain ⟨hnormal, p, hp, hregex⟩ := Pattern.read_literal hread hliteral hsource hstep
  obtain ⟨d, hd, haccepts⟩ := accepts_literal hp
  have hsearch : ∀ s, p.search s =
      Regex.search ⟨r.flags, if r.flags.multiline then r.body else rowStrictly r.body⟩ s := by
    intro s
    rw [Pattern.search, hregex]
    cases r.flags.multiline with
    | true => rw [if_pos rfl, Bool.not_true, exchangeRow_false r.body hnormal]
    | false => exact search_exchangeRow hnormal s
  refine ⟨d, hd, fun s => (haccepts s).trans (hsearch s), fun s hs => ?_⟩
  rw [haccepts, hsearch]
  cases hlines : r.flags.multiline with
  | true => rfl
  | false =>
    rw [if_neg Bool.false_ne_true]
    rcases hs with hmany | hno | ⟨hgroups, hlast⟩
    · exact absurd hmany (by simp [hlines])
    · rw [rowStrictly_eq_self r.body hno]
    · exact search_rowStrictly hlines hgroups hlast

end Validator

end Names

namespace Validator

open Text.CommonNames

/-- A source with slashes, with a switch of its own and with a sign in a set. -/
theorem accepts_patternOf_path :
    let source : String := "(?s)^[^$/]+/.$"
    let given : Flags := { ignoreCase := true }
    source ≠ "" ∧ inStep { spaced := false } false source.toList = true ∧
      ∃ r t, Regex.read source.toList given = .ok r ∧ Tree.patternOf (.text source given) = .ok t ∧
        ∃ d, ofTree (.container .string [t]) = .ok d ∧
          (∀ s, d.accepts (.str s) =
            Regex.search ⟨r.flags, if r.flags.multiline then r.body else rowStrictly r.body⟩ s) ∧
          ∀ s, r.flags.multiline = true ∨ rowHasAnchor .lineEnd r.body = false ∨
            rowTurnsOnLines r.body = false ∧ s.toList.getLast? ≠ some '\n' → d.accepts (.str s) = r.search s := by
  intro source given
  have hsource : source ≠ "" := by decide
  have hstep : inStep { spaced := false } false source.toList = true :=
    inStep_of_plain (by decide +kernel) (by decide +kernel) (by decide +kernel) _ _ rfl
  obtain ⟨r, hread, -⟩ := @exists_ok_of_any _ _ (Regex.read source.toList given) (fun _ => true) (by decide +kernel)
  obtain ⟨t, hrule, -⟩ := @exists_ok_of_any _ _ (Tree.patternOf (.text source given)) (fun _ => true) (by decide +kernel)
  exact ⟨hsource, hstep, r, t, hread, hrule, accepts_patternOf hread hrule hsource fun _ => hstep⟩

/-- A sign for the end of a line is met before a last line break; the rule of the expression does not meet it there. -/
theorem last_break_rejected :
    ∃ r t d, Regex.read ['a', '$'] {} = .ok r ∧ Tree.patternOf (.text "a$" {}) = .ok t ∧
      ofTree (.container .string [t]) = .ok d ∧ r.search "a\n" = true ∧ d.accepts (.str "a\n") = false := by
  obtain ⟨r, hread, hfound⟩ := @exists_ok_of_any _ _ (Regex.read ['a', '$'] {}) (·.search "a\n") (by decide +kernel)
  obtain ⟨t, hrule, hrejected⟩ := @exists_ok_of_any _ _ (Tree.patternOf (.text "a$" {}))
    (fun t => (ofTree (.container .string [t])).toOption.any fun d => !d.accepts (.str "a\n")) (by decide +kernel)
  obtain ⟨d, hd, hout⟩ := exists_ok_of_any hrejected
  exact ⟨r, t, d, hread, hrule, hd, hfound, by simpa using hout⟩

end Validator

end RuleTree
