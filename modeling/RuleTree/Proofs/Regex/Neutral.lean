import Mathlib.Tactic.SplitIfs
import RuleTree.Proofs.Regex.Context

/-!
# Neutral characters

The characters that change no context, in a row or in a set, begin no sign behind a parenthesis, and are never exchanged.
Digits, letters and blanks are such, and the names that an expression may hold - of groups, of characters, of numbers - are
made of them.
-/

namespace RuleTree.Regex

open Reading

/-- The characters that may change a context, tell what a parenthesis opens, or be exchanged. -/
def signs : List Char := ['\\', '$', '[', ']', '(', ')', '#', '?']

/-- Whether a character changes no context, in a row or in a set. -/
def isNeutral (c : Char) : Bool := !signs.contains c

namespace Context

/-- In the middle of a row or of a set. -/
def IsCalm (x : Context) : Prop := x.region = .row ∨ x.region = .set

theorem IsCalm.after {x : Context} (h : x.IsCalm) {c : Char} (hc : isNeutral c = true) (cs : List Char) :
    x.after c cs = x := by
  simp only [isNeutral, signs, List.contains_cons, List.contains_nil, Bool.or_false, Bool.not_or, Bool.and_eq_true,
    Bool.not_eq_true', beq_eq_false_iff_ne] at hc
  rcases h with h | h <;> simp [Context.after, h, hc]

theorem IsCalm.afterEscape {x : Context} (h : x.IsCalm) : x.afterEscape = x := by
  rcases h with h | h <;> simp [Context.afterEscape, h]

end Context

/-! ### Kinds of characters -/

/-- A kind of characters is neutral if the signs are not of it. -/
theorem isNeutral_of {ok : Char → Bool} (h : signs.all (fun c => !ok c) = true) (c : Char) (hc : ok c = true) :
    isNeutral c = true := by
  rw [isNeutral, Bool.not_eq_true', List.contains_eq_mem, decide_eq_false_iff_not]
  intro hmem
  simpa [hc] using List.all_eq_true.mp h c hmem

theorem isNeutral_of_isHexDigit (c : Char) (h : isHexDigit c = true) : isNeutral c = true :=
  isNeutral_of (by decide) c h

theorem isNeutral_of_isOctalDigit (c : Char) (h : isOctalDigit c = true) : isNeutral c = true :=
  isNeutral_of (by decide) c h

theorem isNeutral_of_isDigit (c : Char) (h : Decimal.isDigit c = true) : isNeutral c = true :=
  isNeutral_of (by decide) c h

theorem isNeutral_of_isFlagLetter (c : Char) (h : isFlagLetter c = true) : isNeutral c = true :=
  isNeutral_of (by decide) c h

theorem isNeutral_of_isNamePart (c : Char) (h : Text.isNamePart c = true) : isNeutral c = true :=
  isNeutral_of (by decide +kernel) c h

theorem isNeutral_of_isNameStart (c : Char) (h : Text.isNameStart c = true) : isNeutral c = true :=
  isNeutral_of (by decide +kernel) c h

theorem isNeutral_of_isDecimal (c : Char) (h : Text.isDecimal c = true) : isNeutral c = true :=
  isNeutral_of (by decide +kernel) c h

theorem isNeutral_of_isBlank (c : Char) (h : Text.isBlank c = true) : isNeutral c = true :=
  isNeutral_of (by decide +kernel) c h

theorem all_isNeutral_of_isName {cs : List Char} (h : Text.isName cs = true) : cs.all isNeutral = true := by
  cases cs with
  | nil => rfl
  | cons c cs =>
    obtain ⟨hc, hcs⟩ := (Bool.and_eq_true _ _).mp h
    rw [List.all_cons, isNeutral_of_isNameStart c hc, Bool.true_and, List.all_eq_true]
    exact fun d hd => isNeutral_of_isNamePart d (List.all_eq_true.mp hcs d hd)

theorem isNeutral_of_isNameSign (c : Char) (h : Text.isNameSign c = true) : isNeutral c = true :=
  isNeutral_of (by decide) c h

theorem all_isNeutral_of_ofCharacterName? [Text.CharacterNames] {name : String} {code : Nat}
    (h : Text.ofCharacterName? name = some code) : name.toList.all isNeutral = true :=
  List.all_eq_true.mpr fun c hc => isNeutral_of_isNameSign c (Text.isNameSign_of_ofCharacterName? h c hc)

/-! ### Numbers -/

theorem mem_of_mem_dropWhile {ok : Char → Bool} {c : Char} {cs : List Char} (h : c ∈ cs) :
    ok c = true ∨ c ∈ cs.dropWhile ok := by
  rw [← List.takeWhile_append_dropWhile (p := ok) (l := cs), List.mem_append] at h
  exact h.imp_left fun h => List.all_eq_true.mp List.all_takeWhile c h

theorem isBlank_or_mem_strip {c : Char} {cs : List Char} (h : c ∈ cs) : Text.isBlank c = true ∨ c ∈ Text.strip cs := by
  rcases mem_of_mem_dropWhile h with hblank | hrest
  · exact .inl hblank
  · exact (mem_of_mem_dropWhile (List.mem_reverse.mpr hrest)).imp_right List.mem_reverse.mpr

theorem mem_of_mem_intercalate {c sep : Char} {rows : List (List Char)} (h : c ∈ [sep].intercalate rows) :
    c = sep ∨ c ∈ rows.flatten := by
  match rows with
  | [] => cases h
  | [row] => exact .inr (by simpa using h)
  | row :: next :: rows =>
    rw [List.intercalate_cons_cons, List.mem_append, List.mem_append, List.mem_singleton] at h
    rcases h with (hrow | hsep) | hrest
    · exact .inr (by simp [hrow])
    · exact .inl hsep
    · rcases mem_of_mem_intercalate hrest with hsep | hmem
      · exact .inl hsep
      · exact .inr (by simpa using .inr (by simpa using hmem))

theorem isDecimal_of_foldlM {cs : List Char} {m n : Nat}
    (h : cs.foldlM (fun n c => (Text.decimalDigit? c).map (10 * n + ·)) m = some n) : ∀ c ∈ cs, Text.isDecimal c = true := by
  induction cs generalizing m with
  | nil => simp
  | cons c cs ih =>
    rw [List.foldlM_cons, Option.bind_eq_bind, Option.bind_eq_some_iff] at h
    obtain ⟨k, hk, hrest⟩ := h
    obtain ⟨d, hd, -⟩ := Option.map_eq_some_iff.mp hk
    exact List.forall_mem_cons.mpr ⟨by rw [Text.isDecimal, hd]; rfl, ih hrest⟩

/-- Whether a character may stand behind the sign of a written number. -/
theorem isNeutral_of_mem_body {body : List Char} {n : Nat} (h : Text.ofDecimalDigits? (body.splitOn '_').flatten = some n) :
    ∀ c ∈ body, isNeutral c = true := by
  intro c hc
  have hbody : ['_'].intercalate (body.splitOn '_') = body := List.intercalate_splitOn '_'
  rw [← hbody] at hc
  rcases mem_of_mem_intercalate hc with rfl | hmem
  · decide
  · exact isNeutral_of_isDecimal c (isDecimal_of_foldlM h c hmem)

theorem all_isNeutral_of_integer? {text : String} {limit : Nat} {n : Int} (h : Text.integer? text limit = some n) :
    text.toList.all isNeutral = true := by
  refine List.all_eq_true.mpr fun c hc => ?_
  rcases isBlank_or_mem_strip hc with hblank | hstrip
  · exact isNeutral_of_isBlank c hblank
  · rw [Text.integer?] at h
    split at h
    next sign body hbody =>
    dsimp only at h
    split_ifs at h
    obtain ⟨_, hnumber, -⟩ := Option.map_eq_some_iff.mp h
    obtain ⟨m, hm, -⟩ := Option.bind_eq_some_iff.mp hnumber
    have hneutral := isNeutral_of_mem_body hm
    split at hbody
    · next rest hrest =>
      obtain ⟨-, rfl⟩ := Prod.mk.inj hbody
      rw [hrest] at hstrip
      rcases List.mem_cons.mp hstrip with rfl | hmem
      · decide
      · exact hneutral c hmem
    · next rest hrest =>
      obtain ⟨-, rfl⟩ := Prod.mk.inj hbody
      rw [hrest] at hstrip
      rcases List.mem_cons.mp hstrip with rfl | hmem
      · decide
      · exact hneutral c hmem
    · obtain ⟨-, rfl⟩ := Prod.mk.inj hbody
      exact hneutral c hstrip

end RuleTree.Regex
