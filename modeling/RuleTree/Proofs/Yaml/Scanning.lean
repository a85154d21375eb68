import Mathlib.Data.Bool.AllAny
import RuleTree.Proofs.Json.Numerals
import RuleTree.Proofs.Json.Quoted
import RuleTree.Yaml.Text

/-!
# Scanning what JSON writes

How the scanner of YAML goes over the blanks, the quoted texts and the numerals and words of a text in JSON. A quoted text is
read as it was, but for characters beyond sixteen bits: the codes of their halves are read one by one.
-/

namespace RuleTree

/-! ### Halves -/

namespace Text

/-- What a character is read as where its codes of sixteen bits are read one by one. -/
def halves (c : Char) : List Char :=
  if c.toNat < 0x10000 then [c] else [ofCode (highHalf c.toNat), ofCode (lowHalf c.toNat)]

end Text

/-! ### Printable characters -/

/-- The characters that can be printed in ASCII. -/
def Text.IsPrintable (c : Char) : Prop := 32 ≤ c.toNat ∧ c.toNat ≤ 126

instance (c : Char) : Decidable (Text.IsPrintable c) := inferInstanceAs (Decidable (32 ≤ c.toNat ∧ c.toNat ≤ 126))

namespace Json

theorem escapeUnit_printable {n : Nat} (h : n < 65536) : ∀ c ∈ escapeUnit n, Text.IsPrintable c := by
  have hdigit : ∀ i < 16, Text.IsPrintable (Nat.digitChar i) := by decide
  have hunit : escapeUnit n = '\\' :: 'u' :: (Nat.toDigits 16 n).leftpad 4 '0' := rfl
  rw [hunit, Text.leftpad_toDigits h]
  simp only [List.forall_mem_cons]
  exact ⟨by decide, by decide, hdigit _ (by omega), hdigit _ (by omega), hdigit _ (by omega), hdigit _ (by omega),
    List.forall_mem_nil _⟩

theorem escapeChar_printable (c : Char) : ∀ d ∈ escapeChar c, Text.IsPrintable d := by
  have hvalid := toNat_bounds c
  unfold escapeChar
  dsimp only
  split_ifs with hquote hnewline hreturn htab hback hfeed hplain hsmall
  · simp only [Bool.or_eq_true, beq_iff_eq] at hquote
    rcases hquote with rfl | rfl <;> exact List.all_iff_forall_prop.mp rfl
  · exact List.all_iff_forall_prop.mp rfl
  · exact List.all_iff_forall_prop.mp rfl
  · exact List.all_iff_forall_prop.mp rfl
  · exact List.all_iff_forall_prop.mp rfl
  · exact List.all_iff_forall_prop.mp rfl
  · simp only [Bool.and_eq_true, decide_eq_true_eq] at hplain
    exact List.forall_mem_singleton.mpr hplain
  · exact escapeUnit_printable hsmall
  · have hhalves : Text.highHalf c.toNat < 65536 ∧ Text.lowHalf c.toNat < 65536 := by
      unfold Text.highHalf Text.lowHalf
      omega
    intro d hd
    rcases List.mem_append.mp hd with hd | hd
    · exact escapeUnit_printable hhalves.1 d hd
    · exact escapeUnit_printable hhalves.2 d hd

end Json

namespace Yaml

theorem isBreak_of_isPrintable {c : Char} (h : Text.IsPrintable c) : isBreak c = false := by
  by_contra hbreak
  simp only [isBreak, Bool.not_eq_false, Bool.or_eq_true, beq_iff_eq] at hbreak
  rcases hbreak with (((rfl | rfl) | rfl) | rfl) | rfl <;> exact absurd h (by decide)

theorem isAllowed_of_isPrintable {c : Char} (h : Text.IsPrintable c) : isAllowed c = true := by
  simp [isAllowed, h.1, h.2]

/-! ### Steps and places -/

/-- What follows a step that succeeds goes on from where the step leads. -/
theorem run_bind_of_ok {σ ε α β : Type} {x : StateT σ (Except ε) α} {f : α → StateT σ (Except ε) β} {a : α} {p q : σ}
    (h : x.run p = .ok (a, q)) : (x >>= f).run p = (f a).run q := by
  rw [StateT.run_bind, h]
  rfl

/-- A place behind some characters, in the same line. -/
structure Ahead (cs : List Char) (p q : Place) : Prop where
  rest : p.rest = cs ++ q.rest
  index : q.index = p.index + cs.length
  line : q.line = p.line

namespace Ahead

variable {cs ds r : List Char} {c : Char} {p q s : Place}

theorem nil (p : Place) : Ahead [] p p := ⟨rfl, rfl, rfl⟩

theorem append (h : Ahead cs p q) (h' : Ahead ds q s) : Ahead (cs ++ ds) p s where
  rest := by rw [h.rest, h'.rest, List.append_assoc]
  index := by rw [h'.index, h.index, List.length_append, Nat.add_assoc]
  line := h'.line.trans h.line

theorem rest_eq (h : Ahead cs p q) (hp : p.rest = cs ++ r) : q.rest = r :=
  List.append_cancel_left (h.rest.symm.trans hp)

theorem step (hp : p.rest = c :: r) (hc : isBreak c = false) : Ahead [c] p p.step := by
  simp only [isBreak, Bool.or_eq_false_iff] at hc
  obtain ⟨⟨⟨⟨hfeed, hreturn⟩, hnext⟩, hline⟩, hparagraph⟩ := hc
  constructor <;> simp [Place.step, hp, hfeed, hreturn, hnext, hline, hparagraph]

theorem advance (hp : p.rest = cs ++ r) (hcs : ∀ c ∈ cs, isBreak c = false) : Ahead cs p (p.advance cs.length) := by
  induction cs generalizing p with
  | nil => exact nil p
  | cons c cs ih =>
    rw [List.forall_mem_cons] at hcs
    have hstep : Ahead [c] p p.step := step hp hcs.1
    exact hstep.append (ih (hstep.rest_eq hp) hcs.2)

end Ahead

namespace Scan

theorem run_get (p : Place) : (get : Scan Place).run p = .ok (p, p) := rfl

theorem run_peek (p : Place) : peek.run p = .ok (p.rest.head?, p) := rfl

theorem run_advance (n : Nat) (p : Place) : (advance n).run p = .ok ((), p.advance n) := rfl

theorem run_takeWhile (ok : Char → Bool) (p : Place) :
    (takeWhile ok).run p = .ok (p.rest.takeWhile ok, p.advance (p.rest.takeWhile ok).length) := rfl

theorem run_rounds (p : Place) : rounds.run p = .ok (p.rest.length + 1, p) := rfl

/-! ### Quoted texts -/

section Quoted

variable {w r out : List Char} {c d : Char}

/-- A piece of a quoted text, up to its end and before whatever follows, and what it is read as. -/
def Quotes (w r out : List Char) : Prop :=
  ∀ (fuel : Nat) (p : Place), p.rest = w ++ r → (w ++ r).length < fuel →
    ∃ q, (quotedParts '"' fuel).run p = .ok (out, q) ∧ Ahead w p q

theorem quotedParts_run (fuel : Nat) {p : Place} (hp : p.rest = c :: r) : (quotedParts '"' (fuel + 1)).run p = (
    if c == '"' then do
      advance 1
      return []
    else if c == '\\' then do
      advance 1
      let part ← escape
      return part ++ (← quotedParts '"' fuel)
    else if isBlankOrBreak c then do
      let part ← quotedSpaces
      return part ++ (← quotedParts '"' fuel)
    else do
      advance 1
      return c :: (← quotedParts '"' fuel) : Scan (List Char)).run p := by
  rw [quotedParts, run_bind_of_ok (run_get p), hp]
  rfl

theorem quotes_close (r : List Char) : Quotes ['"'] r [] := by
  intro fuel p hp hfuel
  obtain ⟨fuel, rfl⟩ := Nat.exists_eq_add_of_lt (Nat.zero_lt_of_lt hfuel)
  have hahead : Ahead ['"'] p (p.advance 1) := .step hp (by decide)
  refine ⟨_, ?_, hahead⟩
  rw [Nat.zero_add, quotedParts_run fuel hp]
  rfl

theorem quotes_plain (h : Quotes w r out) (hquote : c ≠ '"') (hslash : c ≠ '\\') (hblank : isBlankOrBreak c = false) :
    Quotes (c :: w) r (c :: out) := by
  intro fuel p hp hfuel
  obtain ⟨fuel, rfl⟩ := Nat.exists_eq_add_of_lt (Nat.zero_lt_of_lt hfuel)
  have hbreak : isBreak c = false := (Bool.or_eq_false_iff.mp hblank).2
  have hahead : Ahead [c] p (p.advance 1) := .step hp hbreak
  obtain ⟨q, hrun, hq⟩ := h fuel _ (hahead.rest_eq hp) (by simpa using hfuel)
  refine ⟨q, ?_, hahead.append hq⟩
  rw [Nat.zero_add, quotedParts_run fuel hp, if_neg (by simpa using hquote), if_neg (by simpa using hslash),
    if_neg (by simp [hblank]), run_bind_of_ok (run_advance 1 p), run_bind_of_ok hrun]
  rfl

/-- Spaces are taken in one go. -/
theorem quotes_spaces {bs : List Char} (h : Quotes (d :: w) r out) (hne : bs ≠ []) (hbs : ∀ c ∈ bs, c = ' ')
    (hd : isBlankOrBreak d = false) : Quotes (bs ++ d :: w) r (bs ++ out) := by
  intro fuel p hp hfuel
  obtain ⟨fuel, rfl⟩ := Nat.exists_eq_add_of_lt (Nat.zero_lt_of_lt hfuel)
  obtain ⟨hspace, hbreak⟩ := Bool.or_eq_false_iff.mp hd
  obtain ⟨b, bs', rfl⟩ := List.exists_cons_of_ne_nil hne
  obtain rfl : b = ' ' := hbs b List.mem_cons_self
  rw [List.append_assoc, List.cons_append] at hp hfuel
  have htake : p.rest.takeWhile isSpaceOrTab = ' ' :: bs' := by
    rw [hp, ← List.cons_append]
    refine Json.takeWhile_append (fun c hc => ?_) ?_
    · rw [hbs c hc]
      rfl
    · simp [hspace]
  have hahead : Ahead (' ' :: bs') p (p.advance (bs'.length + 1)) := by
    refine .advance hp fun c hc => ?_
    rw [hbs c hc]
    rfl
  have hrest : (p.advance (bs'.length + 1)).rest = d :: w ++ r := hahead.rest_eq hp
  have hspaces : quotedSpaces.run p = .ok (' ' :: bs', p.advance (bs'.length + 1)) := by
    have htaken : (takeWhile isSpaceOrTab).run p = .ok (' ' :: bs', p.advance (bs'.length + 1)) := by
      rw [run_takeWhile, htake]
      rfl
    rw [quotedSpaces, run_bind_of_ok htaken, run_bind_of_ok (run_peek _), hrest]
    simp only [List.cons_append, List.head?_cons, hbreak, Bool.false_eq_true, if_false]
    rfl
  obtain ⟨q, hrun, hq⟩ := h fuel _ hrest (by simp only [List.length_append, List.length_cons] at hfuel ⊢; omega)
  refine ⟨q, ?_, hahead.append hq⟩
  rw [Nat.zero_add, quotedParts_run fuel hp, if_neg (by decide), if_neg (by decide), if_pos (by decide),
    run_bind_of_ok hspaces, run_bind_of_ok hrun]
  rfl

/-- An escape, its part after the backslash read as some characters. -/
theorem quotes_escape {e part : List Char} (h : Quotes w r out) (he : ∀ c ∈ e, isBreak c = false)
    (hescape : ∀ p : Place, p.rest = e ++ (w ++ r) → escape.run p = .ok (part, p.advance e.length)) :
    Quotes ('\\' :: (e ++ w)) r (part ++ out) := by
  intro fuel p hp hfuel
  obtain ⟨fuel, rfl⟩ := Nat.exists_eq_add_of_lt (Nat.zero_lt_of_lt hfuel)
  rw [List.cons_append, List.append_assoc] at hp hfuel
  have hslash : Ahead ['\\'] p (p.advance 1) := .step hp (by decide)
  have hahead : Ahead e (p.advance 1) ((p.advance 1).advance e.length) := .advance (hslash.rest_eq hp) he
  obtain ⟨q, hrun, hq⟩ := h fuel _ (hahead.rest_eq (hslash.rest_eq hp))
    (by simp only [List.length_append, List.length_cons] at hfuel ⊢; omega)
  refine ⟨q, ?_, (hslash.append hahead).append hq⟩
  rw [Nat.zero_add, quotedParts_run fuel hp, if_neg (by decide), if_pos (by decide), run_bind_of_ok (run_advance 1 p),
    run_bind_of_ok (hescape _ (hslash.rest_eq hp)), run_bind_of_ok hrun]
  rfl

theorem quotes_letter (h : Quotes w r out) (hbreak : isBreak c = false) (hc : escaped? c = some d) :
    Quotes ('\\' :: c :: w) r (d :: out) := by
  refine @quotes_escape w r out [c] [d] h (List.forall_mem_singleton.mpr hbreak) fun p hp => ?_
  rw [escape, run_bind_of_ok (run_peek p), hp]
  simp only [List.singleton_append, List.head?_cons, hc]
  rfl

theorem hexNumber_run {a b c d : Char} {n : Nat} {p : Place} (hp : p.rest = a :: b :: c :: d :: r)
    (hn : Text.unit? a b c d = some n) : (hexNumber 4).run p = .ok (n, p.advance 4) := by
  rw [hexNumber, run_bind_of_ok (run_get p), hp]
  simp only [List.take_succ_cons, List.take_zero]
  rw [Text.unit?] at hn
  rw [hn]
  rfl

/-- A code of sixteen bits, half of a pair or not. -/
theorem quotes_unit {n : Nat} (h : Quotes w r out) (hn : n < 65536) :
    Quotes (Json.escapeUnit n ++ w) r (Text.ofCode n :: out) := by
  obtain ⟨a, b, c, d, hunit, hread⟩ := Json.escapeUnit_eq hn
  rw [hunit]
  refine @quotes_escape w r out ['u', a, b, c, d] [_] h ?_ fun p hp => ?_
  · intro x hx
    refine isBreak_of_isPrintable (Json.escapeUnit_printable hn x ?_)
    rw [hunit]
    exact List.mem_cons_of_mem _ hx
  · have hahead : (p.advance 1).rest = a :: b :: c :: d :: (w ++ r) := (Ahead.step hp (by decide)).rest_eq hp
    have hnumber : ¬0x80000000 ≤ n := by omega
    have hcode : ¬0x110000 ≤ n := by omega
    have hchar : (codeChar 4).run (p.advance 1) = .ok (Text.ofCode n, (p.advance 1).advance 4) := by
      rw [codeChar, run_bind_of_ok (hexNumber_run hahead hread), if_neg hnumber, if_neg hcode]
      rfl
    rw [escape, run_bind_of_ok (run_peek p), hp]
    simp only [List.cons_append, List.head?_cons, show escaped? 'u' = none from rfl, show codeLength? 'u' = some 4 from rfl]
    rw [run_bind_of_ok (run_advance 1 p), run_bind_of_ok hchar]
    rfl

/-- A character other than a space. -/
theorem quotes_char (h : Quotes w r out) (hspace : c ≠ ' ') : Quotes (Json.escapeChar c ++ w) r (Text.halves c ++ out) := by
  have hvalid := Json.toNat_bounds c
  have hcode := Json.ofCode_toNat c
  have hwhole : c.toNat < 0x10000 → Text.halves c = [c] := fun hsmall => if_pos hsmall
  unfold Json.escapeChar
  dsimp only
  split_ifs with hquote hnewline hreturn htab hback hfeed hplain hsmall
  · simp only [Bool.or_eq_true, beq_iff_eq] at hquote
    rcases hquote with rfl | rfl
    · exact quotes_letter h rfl rfl
    · exact quotes_letter h rfl rfl
  · rw [beq_iff_eq] at hnewline
    subst hnewline
    exact quotes_letter h rfl rfl
  · rw [beq_iff_eq] at hreturn
    subst hreturn
    exact quotes_letter h rfl rfl
  · rw [beq_iff_eq] at htab
    subst htab
    exact quotes_letter h rfl rfl
  · obtain rfl : c = '\x08' := Char.toNat_inj.mp (beq_iff_eq.mp hback)
    exact quotes_letter h rfl rfl
  · obtain rfl : c = '\x0c' := Char.toNat_inj.mp (beq_iff_eq.mp hfeed)
    exact quotes_letter h rfl rfl
  · simp only [Bool.or_eq_true, beq_iff_eq, not_or] at hquote
    simp only [Bool.and_eq_true, decide_eq_true_eq] at hplain
    have htab' : c ≠ '\t' := by simpa using htab
    rw [hwhole (by omega)]
    refine quotes_plain h hquote.1 hquote.2 ?_
    simp [isBlankOrBreak, isSpaceOrTab, hspace, htab', isBreak_of_isPrintable hplain]
  · have hunit := quotes_unit h hsmall
    rw [hcode] at hunit
    rwa [hwhole hsmall]
  · have hhalves : Text.highHalf c.toNat < 65536 ∧ Text.lowHalf c.toNat < 65536 := by
      unfold Text.highHalf Text.lowHalf
      omega
    rw [Text.halves, if_neg hsmall, List.append_assoc]
    exact quotes_unit (quotes_unit h hhalves.2) hhalves.1

theorem escapeChar_eq_cons (c : Char) (hspace : c ≠ ' ') :
    ∃ d e, Json.escapeChar c = d :: e ∧ isBlankOrBreak d = false := by
  unfold Json.escapeChar
  dsimp only
  split_ifs with hquote hnewline hreturn htab hback hfeed hplain hsmall
  · exact ⟨_, _, rfl, rfl⟩
  · exact ⟨_, _, rfl, rfl⟩
  · exact ⟨_, _, rfl, rfl⟩
  · exact ⟨_, _, rfl, rfl⟩
  · exact ⟨_, _, rfl, rfl⟩
  · exact ⟨_, _, rfl, rfl⟩
  · simp only [Bool.and_eq_true, decide_eq_true_eq] at hplain
    have htab' : c ≠ '\t' := by simpa using htab
    exact ⟨_, _, rfl, by simp [isBlankOrBreak, isSpaceOrTab, hspace, htab', isBreak_of_isPrintable hplain]⟩
  · exact ⟨_, _, rfl, rfl⟩
  · exact ⟨_, _, rfl, rfl⟩

theorem quotes_behind_spaces {bs : List Char} (h : Quotes (d :: w) r out) (hbs : ∀ c ∈ bs, c = ' ')
    (hd : isBlankOrBreak d = false) : Quotes (bs ++ d :: w) r (bs ++ out) := by
  by_cases hne : bs = []
  · rw [hne]
    exact h
  · exact quotes_spaces h hne hbs hd

/-- A text as JSON writes it, up to its closing quote. The induction collects the spaces in front, which are taken in one go. -/
theorem quotes_escaped (cs r : List Char) {bs : List Char} (hbs : ∀ c ∈ bs, c = ' ') :
    Quotes (bs ++ (cs.flatMap Json.escapeChar ++ ['"'])) r (bs ++ cs.flatMap Text.halves) := by
  induction cs generalizing bs with
  | nil => exact quotes_behind_spaces (quotes_close r) hbs rfl
  | cons c cs ih =>
    by_cases hspace : c = ' '
    · subst hspace
      have hmore : ∀ c ∈ bs ++ [' '], c = ' ' := by
        intro c hc
        rcases List.mem_append.mp hc with hc | hc
        · exact hbs c hc
        · exact List.mem_singleton.mp hc
      have h := ih hmore
      rw [List.append_assoc, List.append_assoc] at h
      exact h
    · have htail := ih (List.forall_mem_nil _)
      rw [List.nil_append, List.nil_append] at htail
      have h := quotes_char htail hspace
      obtain ⟨d, e, hchar, hd⟩ := escapeChar_eq_cons c hspace
      rw [List.flatMap_cons, List.flatMap_cons, List.append_assoc]
      rw [hchar] at h ⊢
      exact quotes_behind_spaces h hbs hd

/-- The token of a quoted text. -/
theorem quoted_run (s : String) {p : Place} (hp : p.rest = (Json.quote s).toList ++ r) :
    ∃ q, (quoted '"').run p = .ok (.scalar (String.ofList (s.toList.flatMap Text.halves)) false, q) ∧
      Ahead (Json.quote s).toList p q := by
  have hquote : (Json.quote s).toList = '"' :: (s.toList.flatMap Json.escapeChar ++ ['"']) := by
    rw [Json.quote, String.toList_ofList]
    rfl
  rw [hquote] at hp ⊢
  have hopen : Ahead ['"'] p (p.advance 1) := .step hp (by decide)
  obtain ⟨q, hrun, hq⟩ := quotes_escaped s.toList r (List.forall_mem_nil _) ((p.advance 1).rest.length + 1) _
    (hopen.rest_eq hp) (by rw [hopen.rest_eq hp]; exact Nat.lt_succ_self _)
  refine ⟨q, ?_, hopen.append hq⟩
  rw [quoted, run_bind_of_ok (run_advance 1 p), run_bind_of_ok (run_rounds _), run_bind_of_ok hrun]
  rfl

end Quoted

/-! ### Blanks -/

section Blanks

variable {ws r : List Char} {p : Place}

/-- Spaces and line breaks as JSON writes them. -/
def AreBlanks (ws : List Char) : Prop := ∀ c ∈ ws, c = ' ' ∨ c = '\n'

/-- What is no blank, and begins no comment. -/
def Opens (r : List Char) : Prop := ∀ c ∈ r.head?, isBlankOrBreak c = false ∧ c ≠ '#'

theorem Opens.head_ne_space (h : Opens r) : ∀ c ∈ r.head?, (c == ' ') = false := by
  intro c hc
  obtain ⟨hblank, -⟩ := h c hc
  simp only [isBlankOrBreak, isSpaceOrTab, Bool.or_eq_false_iff] at hblank
  exact hblank.1.1

theorem rest_advance (p : Place) (n : Nat) : (p.advance n).rest = p.rest.drop n := by
  induction n generalizing p with
  | zero => rfl
  | succ n ih =>
    rw [Place.advance, ih]
    unfold Place.step
    split
    · next h => rw [h, List.drop_nil, List.drop_nil]
    · next h => rw [h, List.drop_succ_cons]

/-- The spaces in front are followed by a line break or by the end of the blanks. -/
theorem takeWhile_spaces (hws : AreBlanks ws) (hr : ∀ c ∈ r.head?, (c == ' ') = false) :
    ∃ bs ws', ws = bs ++ ws' ∧ (ws ++ r).takeWhile (· == ' ') = bs ∧ (ws' = [] ∨ ∃ t, ws' = '\n' :: t) ∧ AreBlanks ws' := by
  induction ws with
  | nil => exact ⟨[], [], rfl, Json.takeWhile_append (List.forall_mem_nil _) hr, .inl rfl, List.forall_mem_nil _⟩
  | cons c ws ih =>
    obtain ⟨hc, htail⟩ := List.forall_mem_cons.mp hws
    rcases hc with rfl | rfl
    · obtain ⟨bs, ws', rfl, htake, hend, hws'⟩ := ih htail
      refine ⟨' ' :: bs, ws', rfl, ?_, hend, hws'⟩
      rw [List.cons_append, List.takeWhile_cons_of_pos (by decide), htake]
    · exact ⟨[], _, rfl, rfl, .inr ⟨ws, rfl⟩, hws⟩

theorem lineBreak_run_none (hr : ∀ c ∈ p.rest.head?, isBreak c = false) : lineBreak.run p = .ok ([], p) := by
  rw [lineBreak, run_bind_of_ok (run_get p)]
  cases hp : p.rest with
  | nil => rfl
  | cons c r =>
    rw [hp] at hr
    have hc := hr c rfl
    simp only [isBreak, Bool.or_eq_false_iff] at hc
    obtain ⟨⟨⟨⟨hfeed, hreturn⟩, hnext⟩, hline⟩, hparagraph⟩ := hc
    have hne : c ≠ '\r' := by simpa using hreturn
    split
    · next heq => exact absurd (List.cons.inj heq).1 hne
    · next d rest _ heq =>
      obtain ⟨rfl, -⟩ := List.cons.inj heq
      simp only [hfeed, hreturn, hnext, hline, hparagraph, Bool.or_self, Bool.false_eq_true, if_false]
      rfl
    · next heq => cases heq

theorem lineBreak_run_feed (hp : p.rest = '\n' :: r) : lineBreak.run p = .ok (['\n'], p.advance 1) := by
  rw [lineBreak, run_bind_of_ok (run_get p), hp]
  rfl

theorem skipComment_run (hr : p.rest.head? ≠ some '#') : skipComment.run p = .ok ((), p) := by
  rw [skipComment, run_bind_of_ok (run_peek p), if_neg (by simpa using hr)]
  rfl

/-- The gap in front of a token. Without blanks there is none. -/
theorem gap_run (hws : AreBlanks ws) (hr : Opens r) {fuel : Nat} (hfuel : ws.length < fuel) (hp : p.rest = ws ++ r) :
    ∃ lineEnded q, (gap fuel).run p = .ok (lineEnded, q) ∧ q.rest = r ∧ (ws = [] → lineEnded = false ∧ q = p) := by
  induction fuel generalizing ws p with
  | zero => exact absurd hfuel (Nat.not_lt_zero _)
  | succ fuel ih =>
    obtain ⟨bs, ws', rfl, htake, hend, hws'⟩ := takeWhile_spaces hws hr.head_ne_space
    have hspaces : skipSpaces.run p = .ok ((), p.advance bs.length) := by
      have htaken : (takeWhile (· == ' ')).run p = .ok (bs, p.advance bs.length) := by
        rw [run_takeWhile, hp, htake]
      rw [skipSpaces, run_bind_of_ok htaken]
      rfl
    have hrest : (p.advance bs.length).rest = ws' ++ r := by
      rw [rest_advance, hp, List.append_assoc, List.drop_left]
    have hcomment : (p.advance bs.length).rest.head? ≠ some '#' := by
      rw [hrest]
      intro h
      rcases hend with rfl | ⟨t, rfl⟩
      · exact (hr '#' h).2 rfl
      · cases h
    rw [gap, run_bind_of_ok hspaces, run_bind_of_ok (skipComment_run hcomment)]
    rcases hend with rfl | ⟨t, rfl⟩
    · have hbreak : ∀ c ∈ (p.advance bs.length).rest.head?, isBreak c = false := by
        rw [hrest]
        exact fun c hc => (Bool.or_eq_false_iff.mp (hr c hc).1).2
      refine ⟨false, p.advance bs.length, ?_, hrest, fun hnil => ⟨rfl, ?_⟩⟩
      · rw [run_bind_of_ok (lineBreak_run_none hbreak)]
        rfl
      · rw [(List.append_eq_nil_iff.mp hnil).1]
        rfl
    · have hnext : ((p.advance bs.length).advance 1).rest = t ++ r := by
        rw [rest_advance, hrest]
        rfl
      obtain ⟨_, q, hrun, hq, -⟩ := ih (List.forall_mem_cons.mp hws').2
        (by simp only [List.length_append, List.length_cons] at hfuel; omega) hnext
      refine ⟨true, q, ?_, hq, fun hnil => absurd hnil (by simp)⟩
      rw [run_bind_of_ok (lineBreak_run_feed hrest)]
      refine (run_bind_of_ok hrun).trans ?_
      rfl

end Blanks

/-! ### Plain texts -/

section Plain

variable {cs ws r : List Char} {p : Place}

/-- What may stand behind a plain text and the blanks after it: the end, or a sign that ends an element of a flow. -/
def Closes (r : List Char) : Prop := ∀ c ∈ r.head?, c = ',' ∨ c = ']' ∨ c = '\x7d'

theorem Closes.opens (h : Closes r) : Opens r := by
  intro c hc
  rcases h c hc with rfl | rfl | rfl <;> decide

theorem isSeparator_eq_false (h : ∀ c ∈ p.rest.head?, c ≠ '-' ∧ c ≠ '.') : p.isSeparator = false := by
  rw [Place.isSeparator]
  cases hp : p.rest with
  | nil => rfl
  | cons c r =>
    rw [hp] at h
    obtain ⟨hdash, hpoint⟩ := h c rfl
    simp [hdash, hpoint]

theorem head_of_blanks (hws : AreBlanks ws) (hr : Closes r) : ∀ c ∈ (ws ++ r).head?, c ≠ '-' ∧ c ≠ '.' := by
  cases ws with
  | nil =>
    intro c hc
    rcases hr c hc with rfl | rfl | rfl <;> decide
  | cons b ws =>
    intro c hc
    obtain rfl : b = c := Option.some.inj hc
    rcases hws b List.mem_cons_self with rfl | rfl <;> decide

theorem plainBreaks_run (hws : AreBlanks ws) (hr : Closes r) {fuel : Nat} (hfuel : ws.length < fuel) (hp : p.rest = ws ++ r) :
    ∃ breaks q, (plainBreaks fuel).run p = .ok (some breaks, q) ∧ q.rest = r := by
  induction ws generalizing fuel p with
  | nil =>
    obtain ⟨fuel, rfl⟩ := Nat.exists_eq_add_of_lt (Nat.zero_lt_of_lt hfuel)
    rw [List.nil_append] at hp
    refine ⟨[], p, ?_, hp⟩
    rw [Nat.zero_add, plainBreaks, run_bind_of_ok (run_peek p), hp]
    cases r with
    | nil => rfl
    | cons c r =>
      rcases hr c rfl with rfl | rfl | rfl <;> rfl
  | cons b ws ih =>
    obtain ⟨fuel, rfl⟩ := Nat.exists_eq_add_of_lt (Nat.zero_lt_of_lt hfuel)
    obtain ⟨hb, htail⟩ := List.forall_mem_cons.mp hws
    have hnext : (p.advance 1).rest = ws ++ r := by
      rw [rest_advance, hp]
      rfl
    rw [List.length_cons, Nat.zero_add] at hfuel
    obtain ⟨breaks, q, hrun, hq⟩ := ih htail (Nat.lt_of_succ_lt_succ hfuel) hnext
    rw [Nat.zero_add, plainBreaks, run_bind_of_ok (run_peek p), hp]
    rcases hb with rfl | rfl
    · exact ⟨breaks, q, hrun, hq⟩
    · have hseparator : (p.advance 1).isSeparator = false := by
        refine isSeparator_eq_false ?_
        rw [hnext]
        exact head_of_blanks htail hr
      refine ⟨'\n' :: breaks, q, ?_, hq⟩
      change (if isBreak '\n' = true then _ else _ : Scan (Option (List Char))).run p = _
      rw [if_pos (by decide), run_bind_of_ok (lineBreak_run_feed hp), run_bind_of_ok (run_get _), hseparator,
        if_neg Bool.false_ne_true, run_bind_of_ok hrun]
      rfl

theorem plainSpaces_run (hws : AreBlanks ws) (hr : Closes r) (hp : p.rest = ws ++ r) :
    ∃ spaces lineEnded q, plainSpaces.run p = .ok ((some spaces, lineEnded), q) ∧ q.rest = r := by
  obtain ⟨bs, ws', rfl, htake, hend, hws'⟩ := takeWhile_spaces hws hr.opens.head_ne_space
  have htaken : (takeWhile (· == ' ')).run p = .ok (bs, p.advance bs.length) := by
    rw [run_takeWhile, hp, htake]
  have hrest : (p.advance bs.length).rest = ws' ++ r := by
    rw [rest_advance, hp, List.append_assoc, List.drop_left]
  rw [plainSpaces, run_bind_of_ok htaken, run_bind_of_ok (run_peek _), hrest]
  rcases hend with rfl | ⟨t, rfl⟩
  · refine ⟨bs, false, p.advance bs.length, ?_, hrest⟩
    have hbreak : (([] ++ r).head?.any isBreak) = false := by
      cases r with
      | nil => rfl
      | cons c r => exact (Bool.or_eq_false_iff.mp (hr.opens c rfl).1).2
    rw [hbreak, if_neg Bool.false_ne_true]
    rfl
  · have hnext : ((p.advance bs.length).advance 1).rest = t ++ r := by
      rw [rest_advance, hrest]
      rfl
    have hseparator : ((p.advance bs.length).advance 1).isSeparator = false := by
      refine isSeparator_eq_false ?_
      rw [hnext]
      exact head_of_blanks (List.forall_mem_cons.mp hws').2 hr
    have hrounds : t.length < ((p.advance bs.length).advance 1).rest.length + 1 := by
      rw [hnext, List.length_append]
      omega
    obtain ⟨breaks, q, hrun, hq⟩ := plainBreaks_run (List.forall_mem_cons.mp hws').2 hr hrounds hnext
    rw [List.cons_append, List.head?_cons, if_pos (by decide), run_bind_of_ok (lineBreak_run_feed hrest),
      run_bind_of_ok (run_get _), hseparator, if_neg Bool.false_ne_true, run_bind_of_ok (run_rounds _), run_bind_of_ok hrun]
    by_cases hnone : breaks.isEmpty = true
    · exact ⟨_, _, q, by simp only [hnone, if_true, ne_eq, not_true, if_false]; rfl, hq⟩
    · exact ⟨_, _, q, by simp only [hnone, if_false, ne_eq, not_true]; rfl, hq⟩

/-- A character that a plain text goes on with, inside flows and outside. -/
def IsWordChar (c : Char) : Prop := isBlankOrBreak c = false ∧ isFlowSign c = false ∧ c ∉ [':', '?', '#']

instance (c : Char) : Decidable (IsWordChar c) :=
  inferInstanceAs (Decidable (isBlankOrBreak c = false ∧ isFlowSign c = false ∧ c ∉ [':', '?', '#']))

/-- A word that a plain text can be made of. -/
structure IsWord (cs : List Char) : Prop where
  nonempty : cs ≠ []
  chars : ∀ c ∈ cs, IsWordChar c

theorem plainChars_append (flow : Bool) (hcs : ∀ c ∈ cs, IsWordChar c) (t : List Char) :
    plainChars flow (cs ++ t) = cs ++ plainChars flow t := by
  induction cs with
  | nil => rfl
  | cons c cs ih =>
    obtain ⟨⟨hblank, hsign, hmem⟩, hcs⟩ := List.forall_mem_cons.mp hcs
    simp only [List.mem_cons, List.not_mem_nil, or_false, not_or] at hmem
    rw [List.cons_append, plainChars, ih hcs]
    simp [hblank, hsign, hmem.1, hmem.2.1]

/-- Where a plain text ends: at blanks, and inside flows at a sign. -/
theorem plainChars_end {flow : Bool} (hws : AreBlanks ws) (hr : Closes r) (hflow : flow = true ∨ r = []) :
    plainChars flow (ws ++ r) = [] := by
  cases ws with
  | cons b ws =>
    rw [List.cons_append, plainChars, if_pos]
    rcases hws b List.mem_cons_self with rfl | rfl <;> rfl
  | nil =>
    cases r with
    | nil => rfl
    | cons c r =>
      obtain rfl : flow = true := hflow.resolve_right (List.cons_ne_nil _ _)
      rcases hr c rfl with rfl | rfl | rfl <;> rfl

/-- The token of a word, which goes up to what stands behind the blanks. -/
theorem plain_run {flow : Bool} (least : Nat) (hcs : IsWord cs) (hws : AreBlanks ws) (hr : Closes r)
    (hflow : flow = true ∨ r = []) (hp : p.rest = cs ++ (ws ++ r)) :
    ∃ lineEnded q, (plain flow least).run p = .ok ((.scalar (String.ofList cs) true, lineEnded), q) ∧ q.rest = r := by
  obtain ⟨c, cs', hcons⟩ := List.exists_cons_of_ne_nil hcs.nonempty
  have hpeek : (p.peek == some '#') = false := by
    have hmem := (hcs.chars c (by rw [hcons]; exact List.mem_cons_self)).2.2
    simp only [List.mem_cons, List.not_mem_nil, or_false, not_or] at hmem
    rw [Place.peek, hp, hcons]
    simpa using hmem.2.2
  have hpiece : plainChars flow p.rest = cs := by
    rw [hp, plainChars_append flow hcs.chars, plainChars_end hws hr hflow, List.append_nil]
  have hnext : (p.advance cs.length).rest = ws ++ r := by rw [rest_advance, hp, List.drop_left]
  obtain ⟨spaces, lineEnded, q, hspaces, hq⟩ := plainSpaces_run hws hr hnext
  -- The blanks may be kept for a next piece; there is none.
  have hlast (fuel : Nat) : (plainParts flow least (fuel + 1) spaces lineEnded).run q = .ok (([], lineEnded), q) := by
    rw [plainParts, run_bind_of_ok (run_get q), hq]
    have hend : plainChars flow r = [] := plainChars_end (List.forall_mem_nil _) hr hflow
    simp only [hend, ite_self, List.isEmpty_nil, if_true]
    rfl
  have hlong : 1 < p.rest.length + 1 := by
    rw [hp, hcons]
    simp only [List.cons_append, List.length_cons]
    omega
  obtain ⟨fuel, hfuel⟩ := Nat.exists_eq_add_of_lt hlong
  have hrounds : p.rest.length + 1 = fuel + 1 + 1 := by omega
  have hparts : (plainParts flow least (p.rest.length + 1) [] false).run p = .ok ((cs, lineEnded), q) := by
    rw [hrounds, plainParts, run_bind_of_ok (run_get p), hpeek, hpiece]
    have hnonempty : cs.isEmpty = false := List.isEmpty_eq_false_iff.mpr hcs.nonempty
    simp only [Bool.false_eq_true, if_false, hnonempty]
    rw [run_bind_of_ok (run_advance _ p), run_bind_of_ok hspaces]
    dsimp only
    rw [run_bind_of_ok (run_get q)]
    split
    · rfl
    · rw [Option.getD_some, run_bind_of_ok (hlast fuel)]
      simp only [List.nil_append, List.append_nil]
      rfl
  refine ⟨lineEnded, q, ?_, hq⟩
  rw [plain, run_bind_of_ok (run_rounds p), run_bind_of_ok hparts]
  rfl

end Plain

end Scan

end Yaml

end RuleTree
