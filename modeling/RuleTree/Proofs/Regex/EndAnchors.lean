import RuleTree.Proofs.Regex.Matching
import RuleTree.Proofs.Regex.Rows
import RuleTree.Proofs.Rows
import RuleTree.Text.CommonNames

/-!
# Strict end anchors

A literal without the letter for many lines takes the sign for the end of a line as the very end of the text. Its expression
is compiled from a rewritten text; where the scanner that rewrites it is in step with the reader, the syntax tree is that of
the expression as it is written with the end of the text in place of every end of a line, and no other part is changed.
-/

namespace RuleTree

open Regex

namespace PatternLiteral

/-- No letter stands for spaced out expressions, for an alphabet or for templates. -/
theorem switches_of_flags {letters : List Char} {given : Flags} (h : flags letters = .ok given) :
    given.verbose = false ∧ given.ascii = false ∧ given.template = false := by
  induction letters generalizing given with
  | nil =>
    obtain rfl := Except.ok.inj h
    exact ⟨rfl, rfl, rfl⟩
  | cons c cs ih =>
    rw [flags] at h
    split at h
    · cases h
    · next f hf =>
      cases hcs : flags cs with
      | error e => simp [hcs, Except.map] at h
      | ok rest =>
        obtain ⟨hverbose, hascii, htemplate⟩ := ih hcs
        obtain rfl : f.union rest = given := by simpa [hcs, Except.map] using h
        have hletter : f.verbose = false ∧ f.ascii = false ∧ f.template = false := by
          unfold flag? at hf
          split at hf <;> cases hf <;> exact ⟨rfl, rfl, rfl⟩
        simp only [Flags.union, hverbose, hascii, htemplate, hletter, Bool.or_self, and_self]

end PatternLiteral

namespace Pattern

open PatternLiteral

/-- What a literal without the letter for many lines is read as, where the scanner is in step: the written expression with
every sign for the end of a line as the end of the text. -/
theorem read_of_inStep [Text.CharacterNames] {literal : String} {body letters : List Char} {given : Flags} {r : Regex}
    (hsplit : split literal.toList = some (body, letters)) (hflags : flags letters = .ok given)
    (hlines : given.multiline = false) (hread : Regex.read body given = .ok r)
    (hstep : inStep { spaced := false } false body = true) :
    NormalRow r.body ∧
      read literal = .ok ⟨String.ofList (strictEnds false false body), ⟨r.flags, exchangeRow true r.body⟩⟩ := by
  obtain ⟨hverbose, -, -⟩ := switches_of_flags hflags
  have htext : Exchange true { spaced := given.verbose } body (strictEnds false false body) := by
    rw [hverbose]
    exact Exchange.strictEnds_iff_inStep.mpr hstep
  obtain ⟨hnormal, on, hon, hexchanged⟩ := read_exchanged ⟨true, given, given, rfl⟩ htext hread
  have hstrict : Regex.read (strictEnds false false body) given = .ok ⟨r.flags, exchangeRow true r.body⟩ :=
    hexchanged r.flags hon rfl
  refine ⟨hnormal, ?_⟩
  rw [read, hsplit]
  simp only [hflags, hlines, Bool.false_eq_true, if_false, hstrict]

/-- Making end anchors strict changes them and nothing else: where the scanner is in step, a valid expression in a literal
without the letter for many lines is read, its tree is the written one with each end of a line exchanged for the end of the
text, and it finds what that tree finds. Branches stay as they are unless the expression has ends of the text of its own. -/
theorem end_anchors_exchanged [Text.CharacterNames] {literal : String} {body letters : List Char} {given : Flags}
    {r : Regex} (hsplit : split literal.toList = some (body, letters)) (hflags : flags letters = .ok given)
    (hlines : given.multiline = false) (hread : Regex.read body given = .ok r)
    (hstep : inStep { spaced := false } false body = true) :
    ∃ p, read literal = .ok p ∧ p.regex = ⟨r.flags, exchangeRow true r.body⟩ ∧
      (rowHasAnchor .textEnd r.body = false → p.regex.body = rowStrictly r.body) ∧
      rowHasAnchor .lineEnd p.regex.body = false ∧ ∀ s, p.search s = Regex.search ⟨r.flags, rowStrictly r.body⟩ s := by
  obtain ⟨hnormal, hliteral⟩ := read_of_inStep hsplit hflags hlines hread hstep
  refine ⟨_, hliteral, rfl, fun hno => ?_, lineEnd_exchangeRow r.body, fun s => ?_⟩
  · exact exchangeRow_eq_rowStrictly r.body hnormal hno
  · exact search_exchangeRow hnormal s

open Text.CommonNames

/-- Escaped signs, signs in sets and brackets in comments and sets do not mislead the scanner. -/
theorem end_anchors_exchanged_mixed :
    let literal : String := "/^(?:[^\\]$]|\\$|a$)(?#[)*[[$]$/is"
    let body : List Char := ("^(?:[^\\]$]|\\$|a$)(?#[)*[[$]$" : String).toList
    let given : Flags := { ignoreCase := true, dotAll := true }
    split literal.toList = some (body, ['i', 's']) ∧ flags ['i', 's'] = .ok given ∧ given.multiline = false ∧
      inStep { spaced := false } false body = true ∧ ∃ r, Regex.read body given = .ok r ∧
      ∃ p, read literal = .ok p ∧ p.regex = ⟨r.flags, exchangeRow true r.body⟩ ∧
        (rowHasAnchor .textEnd r.body = false → p.regex.body = rowStrictly r.body) ∧
        rowHasAnchor .lineEnd p.regex.body = false ∧ ∀ s, p.search s = Regex.search ⟨r.flags, rowStrictly r.body⟩ s := by
  intro literal body given
  have hsplit : split literal.toList = some (body, ['i', 's']) := by decide +kernel
  have hflags : flags ['i', 's'] = .ok given := rfl
  have hstep : inStep { spaced := false } false body = true := by decide +kernel
  obtain ⟨r, hread, -⟩ := @exists_ok_of_any _ _ (Regex.read body given) (fun _ => true) (by decide +kernel)
  exact ⟨hsplit, hflags, rfl, hstep, r, hread, end_anchors_exchanged hsplit hflags rfl hread hstep⟩

/-- A set whose first member is a closing bracket: the scanner leaves it too early, exchanges the sign in it, and a valid
expression is refused. -/
theorem bracket_first_refused :
    split "/[]$]/".toList = some (['[', ']', '$', ']'], []) ∧ flags [] = .ok {} ∧
      (∃ r, Regex.read ['[', ']', '$', ']'] {} = .ok r ∧ r.search "$" = true) ∧ ∀ p, read "/[]$]/" ≠ .ok p := by
  have hrefused : (read "/[]$]/").isOk = false := by decide +kernel
  refine ⟨by decide +kernel, rfl, exists_ok_of_any (by decide +kernel), fun p h => ?_⟩
  rw [h] at hrefused
  cases hrefused

end Pattern

end RuleTree
