import Mathlib
import RuleTree.Proofs.Regex.Conversion

/-!
# The parts of a literal

A literal falls into an expression and letters in one way only: at its last slash. A line break at the very end of it plays
no part. The regular expression that describes literals, searched for greedily and with steps back, finds just these parts.
Letters matter by which of them there are, and what a compiled expression is written as falls into its source and letters for
its switches again.
-/

namespace RuleTree

open Regex

namespace PatternLiteral

/-! ### Forms of literals -/

/-- Whether a text, but for a line break at its end, is an expression between slashes and some letters behind them. -/
def IsLiteral (text body letters : List Char) : Prop :=
  (if text.getLast? = some '\n' then text.dropLast else text) = '/' :: (body ++ '/' :: letters) ∧ body ≠ [] ∧
    ∀ c ∈ letters, isLetter c = true

theorem dropLineBreak_append (cs : List Char) : dropLineBreak (cs ++ ['\n']) = cs := by
  induction cs with
  | nil => rfl
  | cons c cs ih =>
    rw [List.cons_append, dropLineBreak, ih]
    simp

theorem dropLineBreak_of_getLast? {cs : List Char} (h : cs.getLast? ≠ some '\n') : dropLineBreak cs = cs := by
  induction cs with
  | nil => rfl
  | cons c cs ih =>
    cases cs with
    | nil =>
      rw [dropLineBreak]
      · rfl
      · rintro rfl -
        exact h rfl
    | cons d cs =>
      rw [List.getLast?_cons_cons] at h
      rw [dropLineBreak, ih h]
      simp

theorem dropLineBreak_eq (cs : List Char) :
    dropLineBreak cs = if cs.getLast? = some '\n' then cs.dropLast else cs := by
  split
  · next h =>
    obtain ⟨front, rfl⟩ := List.getLast?_eq_some_iff.mp h
    rw [dropLineBreak_append, List.dropLast_concat]
  · next h => exact dropLineBreak_of_getLast? h

/-- A line break at the end of the letters is one at the end of the literal. -/
theorem dropLineBreak_behind (front after : List Char) {c : Char} (hc : c ≠ '\n') :
    dropLineBreak (front ++ c :: after) = front ++ c :: dropLineBreak after := by
  induction front with
  | nil =>
    rw [List.nil_append, dropLineBreak]
    · rfl
    · rintro rfl -
      exact hc rfl
  | cons d front ih =>
    rw [List.cons_append, dropLineBreak, ih]
    · rfl
    · simp

theorem isLetter_slash : isLetter '/' = false := by decide

theorem not_mem_letters {letters : List Char} {c : Char} (h : ∀ d ∈ letters, isLetter d = true) (hc : isLetter c = false) :
    c ∉ letters := by
  intro hmem
  rw [h c hmem] at hc
  cases hc

/-- The expression of a literal ends at the last slash, whatever it holds itself. -/
theorem IsLiteral.last_slash {text body letters : List Char} (h : IsLiteral text body letters) :
    ∃ behind, text = '/' :: (body ++ '/' :: behind) ∧ '/' ∉ behind ∧ dropLineBreak behind = letters := by
  obtain ⟨htext, hbody, hletters⟩ := h
  have hslash : '/' ∉ letters := not_mem_letters hletters isLetter_slash
  have hbreak : '\n' ∉ letters := not_mem_letters hletters (by decide)
  by_cases hlast : text.getLast? = some '\n'
  · rw [if_pos hlast] at htext
    obtain ⟨front, rfl⟩ := List.getLast?_eq_some_iff.mp hlast
    rw [List.dropLast_concat] at htext
    refine ⟨letters ++ ['\n'], ?_, ?_, dropLineBreak_append letters⟩
    · rw [htext]
      simp
    · simp [hslash]
  · rw [if_neg hlast] at htext
    exact ⟨letters, htext, hslash, dropLineBreak_eq_self hbreak⟩

/-- A literal is split into its parts, and what is split is a literal of these parts. -/
theorem split_eq_some_iff {text body letters : List Char} :
    split text = some (body, letters) ↔ IsLiteral text body letters := by
  constructor
  · intro h
    unfold split at h
    split at h
    · next rest =>
      split at h
      · next before after hsplit =>
        obtain rfl := append_of_splitAtLastSlash hsplit
        dsimp only at h
        split at h
        · next hparts =>
          obtain ⟨rfl, rfl⟩ := Prod.mk.inj (Option.some.inj h)
          rw [Bool.and_eq_true, List.all_eq_true] at hparts
          refine ⟨?_, by simpa using hparts.1, hparts.2⟩
          rw [← dropLineBreak_eq, ← List.cons_append, dropLineBreak_behind _ _ (by decide), List.cons_append]
        · cases h
      · cases h
    · cases h
  · intro h
    obtain ⟨behind, rfl, hslash, rfl⟩ := h.last_slash
    obtain ⟨-, hbody, hletters⟩ := h
    rw [split, splitAtLastSlash_append hslash]
    simp [hbody, List.all_eq_true.mpr hletters]

/-! ### Switches -/

/-- The letters that are known. -/
def known : List Char := ['i', 'm', 's', 'u', 'g']

/-- The switches of some letters. -/
def switchesOf (letters : List Char) : Flags where
  ignoreCase := letters.contains 'i'
  multiline := letters.contains 'm'
  dotAll := letters.contains 's'

theorem flag?_eq_none_iff (c : Char) : flag? c = none ↔ c ∉ known := by
  unfold flag?
  split <;> simp_all [known]

theorem flag?_of_mem_known {c : Char} (h : c ∈ known) : flag? c = some (switchesOf [c]) := by
  simp only [known, List.mem_cons, List.not_mem_nil, or_false] at h
  rcases h with rfl | rfl | rfl | rfl | rfl <;> rfl

theorem switchesOf_cons (c : Char) (cs : List Char) : switchesOf (c :: cs) = (switchesOf [c]).union (switchesOf cs) := by
  simp [switchesOf, Flags.union]

/-- Letters that are known count once each, in any order. -/
theorem flags_of_known {letters : List Char} (h : ∀ c ∈ letters, c ∈ known) : flags letters = .ok (switchesOf letters) := by
  induction letters with
  | nil => rfl
  | cons c cs ih =>
    obtain ⟨hc, hcs⟩ := List.forall_mem_cons.mp h
    rw [switchesOf_cons c cs, flags, flag?_of_mem_known hc, ih hcs]
    rfl

/-- Of letters that are unknown the first is told. -/
theorem flags_eq_error_iff {letters : List Char} {c : Char} : flags letters = .error c ↔
    ∃ front rest, letters = front ++ c :: rest ∧ (∀ d ∈ front, d ∈ known) ∧ c ∉ known := by
  induction letters with
  | nil => simp [flags]
  | cons d cs ih =>
    rw [flags]
    by_cases hd : d ∈ known
    · have hmap : ∀ f : Flags, (flags cs).map f.union = .error c ↔ flags cs = .error c := by
        intro f
        cases flags cs <;> simp [Except.map]
      rw [flag?_of_mem_known hd]
      dsimp only
      rw [hmap, ih]
      constructor
      · rintro ⟨front, rest, rfl, hfront, hc⟩
        exact ⟨d :: front, rest, rfl, List.forall_mem_cons.mpr ⟨hd, hfront⟩, hc⟩
      · rintro ⟨front, rest, hcs, hfront, hc⟩
        cases front with
        | nil =>
          obtain rfl : d = c := (List.cons.inj hcs).1
          exact absurd hd hc
        | cons e front =>
          exact ⟨front, rest, (List.cons.inj hcs).2, (List.forall_mem_cons.mp hfront).2, hc⟩
    · rw [(flag?_eq_none_iff d).mpr hd, Except.error.injEq]
      constructor
      · rintro rfl
        exact ⟨[], cs, rfl, List.forall_mem_nil _, hd⟩
      · rintro ⟨front, rest, hcs, hfront, -⟩
        cases front with
        | nil => exact (List.cons.inj hcs).1
        | cons e front =>
          obtain rfl : d = e := (List.cons.inj hcs).1
          exact absurd (hfront d List.mem_cons_self) hd

/-! ### The expression that describes literals -/

/-- An expression between slashes and small letters behind them; a point is to stand for line breaks too. -/
def formText : String := "^/(.+)/([a-z]*)$"

def form : Regex where
  flags := { dotAll := true, unicode := true }
  body := [.anchor .lineStart, .literal false 47, .group (some 1) {} {} [.repeated .greedy 1 none [.any]],
    .literal false 47, .group (some 2) {} {} [.repeated .greedy 0 none [.set false [.range 97 122]]], .anchor .lineEnd]

def isForm (r : Regex) : Bool :=
  match r.body with
  | [.anchor a, .literal false c, .group m on off [.repeated .greedy k none [.any]],
    .literal false d, .group n on' off' [.repeated .greedy l none [.set false items]], .anchor b] =>
    a == .lineStart && c == 47 && m == some 1 && on == {} && off == {} && k == 1 && d == 47 && n == some 2 &&
      on' == {} && off' == {} && l == 0 && items == [.range 97 122] && b == .lineEnd && r.flags == form.flags
  | _ => false

theorem eq_form {r : Regex} (h : isForm r = true) : r = form := by
  obtain ⟨f, body⟩ := r
  unfold isForm at h
  split at h
  · next heq =>
    simp only [Bool.and_eq_true, beq_iff_eq] at h heq
    simp_all [form]
  · cases h

theorem read_formText [Text.CharacterNames] : Regex.read formText.toList { dotAll := true } = .ok form := by
  have hread : (Regex.read formText.toList { dotAll := true }).toOption.any isForm = true := by cbv
  obtain ⟨r, hr, h⟩ := exists_ok_of_any hread
  rw [hr, eq_form h]

/-- What a group holds where an expression has matched up to a cursor. -/
def held (text : List Char) (c : Cursor) (group : Nat) : Option (List Char) :=
  (c.captured? group).map fun ends => (text.drop ends.1).take (ends.2 - ends.1)

/-- What the two groups of an expression hold where it matches at the start of a text. -/
def heldAtStart (r : Regex) (text : List Char) : Option (Option (List Char) × Option (List Char)) :=
  (runRow text.toArray r.body r.flags ⟨0, []⟩ some).map fun c => (held text c 1, held text c 2)

section Greedy

variable {text : List Char} {holds : Char → Bool} {least : Nat} {rest : Rest} {front cs : List Char} {d : Char}

/-- A greedy repetition of single characters goes on as long as they hold, and comes back where nothing follows. -/
theorem iterate_step (htext : text = front ++ d :: cs) (hholds : holds d = true) {count : Nat} (hcount : least ≤ count)
    {last : Option Nat} (hlast : last ≠ some front.length) (fuel : Nat) (marks : List (Nat × Nat)) :
    iterate (fun c rest => step text.toArray holds c rest) false least none rest (fuel + 1) count last ⟨front.length, marks⟩ =
      (iterate (fun c rest => step text.toArray holds c rest) false least none rest fuel (count + 1) (some front.length)
        ⟨(front ++ [d]).length, marks⟩).orElse fun _ => rest ⟨front.length, marks⟩ := by
  have hd : text.toArray[front.length]? = some d := by
    rw [htext]
    simp
  rw [iterate, if_neg (by omega)]
  simp [hlast, step, hd, hholds]

/-- It ends where the next character does not hold or the text ends. -/
theorem iterate_stop (htext : text = front ++ cs) (hcs : ∀ d ∈ cs.head?, holds d = false) {count : Nat}
    (hcount : least ≤ count) (fuel : Nat) (last : Option Nat) (marks : List (Nat × Nat)) :
    iterate (fun c rest => step text.toArray holds c rest) false least none rest (fuel + 1) count last ⟨front.length, marks⟩ =
      rest ⟨front.length, marks⟩ := by
  have hnone : ∀ next, step text.toArray holds ⟨front.length, marks⟩ next = none := by
    intro next
    rw [step, htext]
    cases cs with
    | nil => simp
    | cons d cs => simp [hcs d rfl]
  rw [iterate, if_neg (by omega)]
  simp [hnone]

end Greedy

section Parts

variable {text front cs : List Char}

theorem letter_holds (f : Flags) (hf : f.ignoreCase = false) (d : Char) :
    ([SetItem.range 97 122].any (·.holds f d) != false) = isLetter d := by
  simp [SetItem.holds, hf, isLetter, Char.le_def, UInt32.le_iff_toNat_le]

theorem slash_holds (f : Flags) (hf : f.ignoreCase = false) (d : Char) : (f.literalHolds 47 d != false) = (d == '/') := by
  rw [Bool.eq_iff_iff]
  simp [Flags.literalHolds, char?, Flags.alike, Flags.fold, hf]

/-- What may stand behind the letters of a literal. -/
def Ends (cs : List Char) : Prop := cs = [] ∨ cs = ['\n']

instance (cs : List Char) : Decidable (Ends cs) := inferInstanceAs (Decidable (_ ∨ _))

theorem lineEnd_holds (f : Flags) (hf : f.multiline = false) (front cs : List Char) :
    Anchor.lineEnd.holds f (front ++ cs).toArray front.length = decide (Ends cs) := by
  rw [Bool.eq_iff_iff, decide_eq_true_eq, Ends]
  cases cs with
  | nil => simp [Anchor.holds]
  | cons c cs =>
    cases cs with
    | nil => simp [Anchor.holds, hf]
    | cons d cs => simp [Anchor.holds, hf]

/-- What is left to match behind the letters. -/
def behindLetters (text : List Char) : Rest := fun d =>
  if Anchor.lineEnd.holds form.flags text.toArray d.position then some (d.mark 5) else none

theorem behindLetters_eq (htext : text = front ++ cs) (marks : List (Nat × Nat)) :
    behindLetters text ⟨front.length, marks⟩ = if Ends cs then some (Cursor.mark ⟨front.length, marks⟩ 5) else none := by
  rw [behindLetters, htext, lineEnd_holds form.flags rfl]
  simp

/-- The letters are taken together: where one of them stands the text does not end. -/
theorem iterate_letters (htext : text = front ++ cs) {last : Option Nat} (hlast : last ≠ some front.length) {fuel : Nat}
    (hfuel : cs.length < fuel) (count : Nat) (marks : List (Nat × Nat)) :
    iterate (fun c rest => step text.toArray isLetter c rest) false 0 none (behindLetters text) fuel count last
        ⟨front.length, marks⟩ =
      if Ends (cs.dropWhile isLetter) then
        some (Cursor.mark ⟨front.length + (cs.takeWhile isLetter).length, marks⟩ 5)
      else none := by
  induction cs generalizing front fuel count last with
  | nil =>
    obtain ⟨fuel, rfl⟩ := Nat.exists_eq_add_of_lt hfuel
    exact (iterate_stop htext (by simp) (Nat.zero_le _) _ last marks).trans (behindLetters_eq htext marks)
  | cons d cs ih =>
    obtain ⟨fuel, rfl⟩ := Nat.exists_eq_add_of_lt hfuel
    by_cases hd : isLetter d = true
    · have hhere : ¬Ends (d :: cs) := by
        rintro (h | h)
        · cases h
        · rw [(List.cons.inj h).1] at hd
          revert hd
          decide
      have htext' : text = (front ++ [d]) ++ cs := by simp [htext]
      have hlast' : some front.length ≠ some (front ++ [d]).length := by simp
      have hfuel' : cs.length < (d :: cs).length + fuel := by
        rw [List.length_cons]
        omega
      rw [iterate_step htext hd (Nat.zero_le _) hlast, ih htext' hlast' hfuel', behindLetters_eq htext, if_neg hhere]
      simp only [List.takeWhile_cons, List.dropWhile_cons, hd, if_true, List.length_append, List.length_cons,
        List.length_nil, Nat.zero_add, Nat.add_assoc, Nat.add_comm 1]
      split <;> rfl
    · have hstop : ∀ e ∈ (d :: cs).head?, isLetter e = false := by simpa using hd
      rw [iterate_stop htext hstop (Nat.zero_le _), behindLetters_eq htext]
      simp [hd]

/-- What is left to match behind the expression of a literal. -/
def behindBody (text : List Char) : Rest := fun d =>
  step text.toArray (· == '/') (d.mark 3) fun e =>
    iterate (fun c rest => step text.toArray isLetter c rest) false 0 none (behindLetters text)
      (0 + (text.length - e.position) + 3) 0 none (e.mark 4)

/-- Where an expression has ended and its letters have. -/
def ended (at_ : Nat) (letters : List Char) (marks : List (Nat × Nat)) : Cursor where
  position := at_ + 1 + letters.length
  marks := (5, at_ + 1 + letters.length) :: (4, at_ + 1) :: (3, at_) :: marks

theorem behindBody_slash (htext : text = front ++ '/' :: cs) (marks : List (Nat × Nat)) :
    behindBody text ⟨front.length, marks⟩ =
      if Ends (cs.dropWhile isLetter) then some (ended front.length (cs.takeWhile isLetter) marks) else none := by
  have hslash : text.toArray[front.length]? = some '/' := by
    rw [htext]
    simp
  have htext' : text = (front ++ ['/']) ++ cs := by simp [htext]
  have hlast : (none : Option Nat) ≠ some (front ++ ['/']).length := by simp
  have hfuel : cs.length < 0 + (text.length - (front.length + 1)) + 3 := by
    rw [htext, List.length_append, List.length_cons]
    omega
  have hletters := iterate_letters htext' hlast hfuel 0 ((4, front.length + 1) :: (3, front.length) :: marks)
  rw [List.length_append, List.length_singleton] at hletters
  rw [behindBody, step, Cursor.mark, hslash]
  exact hletters

theorem behindBody_other (htext : text = front ++ cs) (hcs : ∀ d ∈ cs.head?, d ≠ '/') (marks : List (Nat × Nat)) :
    behindBody text ⟨front.length, marks⟩ = none := by
  rw [behindBody, Cursor.mark, step, htext]
  cases cs with
  | nil => simp
  | cons d cs => simp [hcs d rfl]

/-- Letters behind a slash go on to the end only if no other slash follows. -/
theorem not_ends_of_mem_slash (h : '/' ∈ cs) : ¬Ends (cs.dropWhile isLetter) := by
  have hmem : '/' ∈ cs.dropWhile isLetter := by
    rw [← List.takeWhile_append_dropWhile (p := isLetter) (l := cs), List.mem_append] at h
    refine h.resolve_left fun htake => ?_
    have hletter := List.all_eq_true.mp List.all_takeWhile '/' htake
    rw [isLetter_slash] at hletter
    cases hletter
  rintro (hnil | hbreak)
  · rw [hnil] at hmem
    cases hmem
  · rw [hbreak] at hmem
    simp at hmem

/-- Of all places where the expression could end, the last slash is the first to be tried, and the only one to succeed. -/
theorem iterate_body {holds : Char → Bool} (hholds : ∀ d, holds d = true) (htext : text = front ++ cs) {last : Option Nat}
    (hlast : last ≠ some front.length) {fuel : Nat} (hfuel : cs.length < fuel) {count : Nat} (hcount : 1 ≤ count)
    (marks : List (Nat × Nat)) :
    iterate (fun c rest => step text.toArray holds c rest) false 1 none (behindBody text) fuel count last
        ⟨front.length, marks⟩ =
      (splitAtLastSlash cs).bind fun parts =>
        if Ends (parts.2.dropWhile isLetter) then
          some (ended (front.length + parts.1.length) (parts.2.takeWhile isLetter) marks)
        else none := by
  induction cs generalizing front fuel count last with
  | nil =>
    obtain ⟨fuel, rfl⟩ := Nat.exists_eq_add_of_lt hfuel
    exact (iterate_stop htext (by simp) hcount _ last marks).trans (behindBody_other htext (by simp) marks)
  | cons d cs ih =>
    obtain ⟨fuel, rfl⟩ := Nat.exists_eq_add_of_lt hfuel
    have htext' : text = (front ++ [d]) ++ cs := by simp [htext]
    have hlast' : some front.length ≠ some (front ++ [d]).length := by simp
    have hfuel' : cs.length < (d :: cs).length + fuel := by
      rw [List.length_cons]
      omega
    rw [iterate_step htext (hholds d) hcount hlast, ih htext' hlast' hfuel' (Nat.le_add_left 1 count), splitAtLastSlash]
    cases hsplit : splitAtLastSlash cs with
    | some parts =>
      obtain ⟨before, after⟩ := parts
      have hmem : '/' ∈ cs := by
        rw [append_of_splitAtLastSlash hsplit]
        simp
      have hhere : behindBody text ⟨front.length, marks⟩ = none := by
        by_cases hd : d = '/'
        · subst hd
          rw [behindBody_slash htext, if_neg (not_ends_of_mem_slash hmem)]
        · exact behindBody_other htext (by simpa using hd) marks
      rw [hhere]
      simp only [Option.bind_some, List.length_append, List.length_cons, List.length_nil, Nat.zero_add, Nat.add_assoc,
        Nat.add_comm 1]
      split <;> rfl
    | none =>
      by_cases hd : d = '/'
      · subst hd
        rw [behindBody_slash htext, if_pos rfl]
        simp
      · rw [behindBody_other htext (by simpa using hd), if_neg hd]
        rfl

theorem ends_letters_iff (cs : List Char) : Ends (cs.dropWhile isLetter) ↔ (dropLineBreak cs).all isLetter = true := by
  induction cs with
  | nil => simp [Ends, dropLineBreak]
  | cons c cs ih =>
    by_cases hc : isLetter c = true
    · have hne : c ≠ '\n' := by
        rintro rfl
        revert hc
        decide
      have hdrop : dropLineBreak (c :: cs) = c :: dropLineBreak cs := dropLineBreak_behind [] cs hne
      rw [List.dropWhile_cons, if_pos hc, ih, hdrop, List.all_cons, hc, Bool.true_and]
    · rw [List.dropWhile_cons, if_neg hc]
      by_cases hbreak : c :: cs = ['\n']
      · rw [hbreak]
        exact iff_of_true (.inr rfl) rfl
      · have hdrop : dropLineBreak (c :: cs) = c :: dropLineBreak cs := by
          rw [dropLineBreak]
          rintro rfl rfl
          exact hbreak rfl
        rw [hdrop, List.all_cons]
        simp [Ends, hbreak, hc]

theorem takeWhile_letters (h : Ends (cs.dropWhile isLetter)) : cs.takeWhile isLetter = dropLineBreak cs := by
  have hletters : ∀ c ∈ cs.takeWhile isLetter, isLetter c = true := List.all_eq_true.mp List.all_takeWhile
  have hparts := List.takeWhile_append_dropWhile (p := isLetter) (l := cs)
  rcases h with hnil | hbreak
  · rw [hnil, List.append_nil] at hparts
    rw [← congrArg dropLineBreak hparts, dropLineBreak_eq_self (not_mem_letters hletters (by decide))]
  · rw [hbreak] at hparts
    rw [← congrArg dropLineBreak hparts, dropLineBreak_append]

/-- What the groups hold when the letters behind an expression have ended. -/
theorem held_ended (body after : List Char) (h : Ends (after.dropWhile isLetter)) :
    (held ('/' :: (body ++ '/' :: after)) (ended (1 + body.length) (after.takeWhile isLetter) [(2, 1)]) 1,
      held ('/' :: (body ++ '/' :: after)) (ended (1 + body.length) (after.takeWhile isLetter) [(2, 1)]) 2) =
    (some body, some (dropLineBreak after)) := by
  have hletters : after.takeWhile isLetter ++ after.dropWhile isLetter = after := List.takeWhile_append_dropWhile
  rw [takeWhile_letters h] at hletters ⊢
  have hbehind : ('/' :: (body ++ '/' :: after)).drop (1 + body.length + 1) = after := by
    have hfront : '/' :: (body ++ '/' :: after) = ('/' :: body ++ ['/']) ++ after := by simp
    rw [hfront, List.drop_left' (by simp; omega)]
  have htake : after.take (dropLineBreak after).length = dropLineBreak after := by
    rw [← congrArg (List.take (dropLineBreak after).length) hletters, List.take_left]
  simp [held, Cursor.captured?, ended, List.lookup_cons, hbehind, htake]

/-- Behind the first slash the expression takes one character at least. -/
theorem iterate_first {holds : Char → Bool} (hholds : ∀ d, holds d = true) {rest : Rest} {d : Char}
    (htext : text = front ++ d :: cs) (fuel : Nat) (marks : List (Nat × Nat)) :
    iterate (fun c rest => step text.toArray holds c rest) false 1 none rest (fuel + 1) 0 none ⟨front.length, marks⟩ =
      iterate (fun c rest => step text.toArray holds c rest) false 1 none rest fuel 1 none ⟨(front ++ [d]).length, marks⟩ := by
  have hd : text.toArray[front.length]? = some d := by
    rw [htext]
    simp
  rw [iterate, if_pos Nat.zero_lt_one, step, hd]
  simp [hholds]

/-- Read as an expression, the description of literals finds the parts of a literal, and nothing in other texts. -/
theorem heldAtStart_form (text : List Char) :
    heldAtStart form text = (split text).map fun parts => (some parts.1, some parts.2) := by
  have hslash : (fun d => form.flags.literalHolds 47 d != false) = (· == '/') := funext (slash_holds form.flags rfl)
  have hletter : (fun d => [SetItem.range 97 122].any (·.holds form.flags d) != false) = isLetter :=
    funext (letter_holds form.flags rfl)
  have hrun : runRow text.toArray form.body form.flags ⟨0, []⟩ some =
      step text.toArray (· == '/') ⟨0, []⟩ fun c =>
        iterate (fun c rest => step text.toArray (fun d => form.flags.dotAll || d != '\n') c rest) false 1 none
          (behindBody text) (1 + (text.length - c.position) + 3) 0 none (c.mark 2) := by
    simp only [form] at hslash hletter
    simp only [form, runRow, Node.run, Flags.inside_empty, hslash, hletter]
    exact if_pos rfl
  rw [heldAtStart, hrun, step]
  cases text with
  | nil => rfl
  | cons c cs =>
    by_cases hc : c = '/'
    · subst hc
      cases cs with
      | nil => rfl
      | cons d cs =>
        have hall : ∀ e, (form.flags.dotAll || e != '\n') = true := fun _ => rfl
        have htext : '/' :: d :: cs = ['/'] ++ d :: cs := rfl
        have htext' : '/' :: d :: cs = ['/', d] ++ cs := rfl
        have hfuel : cs.length < 1 + (('/' :: d :: cs).length - 1) + 2 := by
          simp only [List.length_cons]
          omega
        have hbody := (iterate_first hall htext (1 + (('/' :: d :: cs).length - 1) + 2) [(2, 1)]).trans
          (iterate_body hall htext' (by simp) hfuel Nat.one_pos [(2, 1)])
        refine (congrArg _ hbody).trans ?_
        rw [split, splitAtLastSlash]
        cases hsplit : splitAtLastSlash cs with
        | none =>
          by_cases hd : d = '/'
          · simp [hd]
          · simp [hd]
        | some parts =>
          obtain ⟨before, after⟩ := parts
          have hcs := append_of_splitAtLastSlash hsplit
          simp only [Option.bind_some, ends_letters_iff]
          by_cases hends : (dropLineBreak after).all isLetter = true
          · have hheld := held_ended (d :: before) after ((ends_letters_iff after).mpr hends)
            rw [List.cons_append, ← hcs, List.length_cons, Nat.add_comm before.length, ← Nat.add_assoc] at hheld
            simp only [hends, if_true, Option.map_some, List.isEmpty_cons, Bool.not_false, Bool.and_self]
            exact congrArg some hheld
          · simp [hends]
    · simp [hc, split]

end Parts

end PatternLiteral

variable [Text.CharacterNames]

/-- An expression that has only switches that letters can stand for has a literal: its source and these letters. -/
theorem Expression.exists_literal {source : String} {given : Flags} (hverbose : (flagsInEffect source given).verbose = false)
    (hascii : (flagsInEffect source given).ascii = false) (htemplate : (flagsInEffect source given).template = false) :
    ∃ text, Expression.literal (.text source given) = .ok text ∧
      text.toList = '/' :: (source.toList ++ '/' :: PatternLiteral.lettersOf (flagsInEffect source given)) := by
  rw [Expression.literal, if_neg (by simp [hverbose, hascii, htemplate])]
  refine ⟨_, rfl, ?_⟩
  generalize flagsInEffect source given = f
  simp only [String.toList_append, PatternLiteral.lettersOf, List.append_assoc]
  cases f.ignoreCase <;> cases f.multiline <;> cases f.dotAll <;> rfl

/-! ### Reading by parts -/

namespace Pattern

open PatternLiteral

/-- What an expression is compiled to under some switches. Its signs for the end of a line are taken as the very end, unless it
is about many lines. -/
def compiled (body : List Char) (f : Flags) : Except PatternFault Pattern :=
  let body := if f.multiline then body else strictEnds false false body
  match Regex.read body f with
  | .error fault => .error (.expression body fault)
  | .ok regex => .ok ⟨String.ofList body, regex⟩

theorem compiled_ne_error {body : List Char} {f : Flags} {fault : PatternFault}
    (hfault : ∀ cs cause, fault ≠ .expression cs cause) : compiled body f ≠ .error fault := by
  rw [compiled]
  split
  · exact fun h => hfault _ _ (Except.error.inj h).symm
  · intro h
    cases h

theorem read_of_split {literal : String} {body letters : List Char} (h : split literal.toList = some (body, letters)) :
    read literal = (flags letters).mapError .unsupportedFlag >>= compiled body := by
  rw [read, h]
  dsimp only
  cases flags letters <;> rfl

theorem read_eq_malformed_iff {literal : String} :
    read literal = .error (.malformed literal) ↔ ¬∃ body letters, IsLiteral literal.toList body letters := by
  cases hsplit : split literal.toList with
  | none =>
    refine iff_of_true (by rw [read, hsplit]) ?_
    rintro ⟨body, letters, h⟩
    rw [split_eq_some_iff.mpr h] at hsplit
    cases hsplit
  | some parts =>
    refine iff_of_false ?_ (not_not_intro ⟨parts.1, parts.2, split_eq_some_iff.mp hsplit⟩)
    rw [read_of_split hsplit]
    cases flags parts.2 with
    | error c =>
      intro h
      cases h
    | ok f => exact compiled_ne_error (by simp)

theorem read_eq_unsupported_iff {literal : String} {body letters : List Char}
    (h : split literal.toList = some (body, letters)) {c : Char} :
    read literal = .error (.unsupportedFlag c) ↔ flags letters = .error c := by
  rw [read_of_split h]
  cases flags letters with
  | error d => simp [bind, Except.bind, Except.mapError]
  | ok f => exact iff_of_false (compiled_ne_error (by simp)) (by simp)

/-- A text is a literal in one way at most, that of the regular expression for literals: the expression in it ends at the last
slash. Other texts are malformed. Of letters that are unknown the first is told; otherwise it only matters which of the letters
with a switch occur. The literal of a compiled expression with a source falls into the source and the switches in effect. -/
theorem literals_fall_apart (literal source : String) (given : Flags) :
    Regex.read formText.toList { dotAll := true } = .ok form ∧
    heldAtStart form literal.toList = (split literal.toList).map (fun parts => (some parts.1, some parts.2)) ∧
    (∀ body letters, split literal.toList = some (body, letters) ↔ IsLiteral literal.toList body letters) ∧
    (read literal = .error (.malformed literal) ↔ ¬∃ body letters, IsLiteral literal.toList body letters) ∧
    (∀ body letters, IsLiteral literal.toList body letters →
      (∃ behind, literal.toList = '/' :: (body ++ '/' :: behind) ∧ '/' ∉ behind) ∧
      (∀ c, read literal = .error (.unsupportedFlag c) ↔
        ∃ front rest, letters = front ++ c :: rest ∧ (∀ d ∈ front, d ∈ known) ∧ c ∉ known) ∧
      ((∀ c ∈ letters, c ∈ known) → read literal = compiled body (switchesOf letters))) ∧
    (∀ f, Expression.flagsInEffect source given = f → f.verbose = false → f.ascii = false → f.template = false → source ≠ "" →
      ∃ text letters, Expression.literal (.text source given) = .ok text ∧
        split text.toList = some (source.toList, letters) ∧
        flags letters = .ok { ignoreCase := f.ignoreCase, multiline := f.multiline, dotAll := f.dotAll }) := by
  refine ⟨read_formText, heldAtStart_form _, fun body letters => split_eq_some_iff, read_eq_malformed_iff, ?_, ?_⟩
  · intro body letters hliteral
    have hsplit : split literal.toList = some (body, letters) := split_eq_some_iff.mpr hliteral
    obtain ⟨behind, htext, hslash, -⟩ := hliteral.last_slash
    refine ⟨⟨behind, htext, hslash⟩, fun c => (read_eq_unsupported_iff hsplit).trans flags_eq_error_iff, fun hknown => ?_⟩
    rw [read_of_split hsplit, flags_of_known hknown]
    rfl
  · rintro f rfl hverbose hascii htemplate hsource
    obtain ⟨text, htext, hlist⟩ := Expression.exists_literal hverbose hascii htemplate
    refine ⟨text, _, htext, ?_, flags_lettersOf _⟩
    rw [hlist]
    exact split_written (by simpa using hsource) (lettersOf_isLetter _)

end Pattern

end RuleTree
