import RuleTree.Proofs.Regex.Leaves

/-!
# The beginnings of groups in exchanged expressions

What a group is stands in signs behind its parenthesis that are never exchanged. Two readings read them alike, and the context
behind them is the one that the characters tell: the switches that were read are those that the context looked for.
-/

namespace RuleTree.Regex

open Reading

/-! ### Switches -/

section Switches

variable {t : Change} {on : Flags} {x : Context} {cs : List Char} {α β : Type} {P : Progress → Progress → Prop}
  {Q : α → β → Progress → Progress → Prop}

theorem Follows.failFlag {g : Reading β} {token : Token} {otherwise : Reason} : Follows P (failFlag token otherwise) g Q := by
  cases token <;> exact .fail

theorem verbose_of_flag? {c : Char} {f : Flags} (h : flag? c = some f) : f.verbose = ('x' == c) := by
  unfold flag? at h
  split at h <;> cases h <;> rfl

/-- Letters up to a sign, and whether blanks are among what they switch. -/
structure Letters (letter : Char) (before after : Bool) (cs : List Char) (stop : Char) (ds : List Char) : Prop where
  split : ∃ letters, cs = letters ++ stop :: ds ∧ letters.all isFlagLetter = true ∧
    after = (before || (letter :: letters).contains 'x')

theorem Letters.last {letter stop : Char} {before : Bool} {f : Flags} (hf : flag? letter = some f) (ds : List Char) :
    Letters letter before (before || f.verbose) (stop :: ds) stop ds where
  split := ⟨[], rfl, rfl, by rw [verbose_of_flag? hf, List.contains_cons, List.contains_nil, Bool.or_false]⟩

theorem Letters.cons {letter c stop : Char} {before after : Bool} {f : Flags} (hf : flag? letter = some f)
    (hc : isFlagLetter c = true) {cs ds : List Char} (h : Letters c (before || f.verbose) after cs stop ds) :
    Letters letter before after (c :: cs) stop ds where
  split := by
    obtain ⟨letters, rfl, hall, rfl⟩ := h.split
    refine ⟨c :: letters, rfl, by rw [List.all_cons, hc, hall]; rfl, ?_⟩
    rw [verbose_of_flag? hf, List.contains_cons (a := letter), Bool.or_assoc]

theorem follows_readFlagsOn (hx : x.region = .row) (fuel fuel' : Nat) (hfuel : fuel ≤ fuel') (letter : Char) (before : Flags)
    (cs : List Char) : Follows (Twin t on x cs) (readFlagsOn fuel letter before) (readFlagsOn fuel' letter before)
      fun a b p q => b = a ∧ (a.2 = ')' ∨ a.2 = '-' ∨ a.2 = ':') ∧
        ∃ ds, Letters letter before.verbose a.1.verbose cs a.2 ds ∧ Twin t on (x.after a.2 ds) ds p q := by
  induction fuel generalizing fuel' letter before cs with
  | zero => exact .throw
  | succ fuel ih =>
    obtain ⟨fuel', rfl⟩ : ∃ n, fuel' = n + 1 := ⟨fuel' - 1, by omega⟩
    rw [readFlagsOn, readFlagsOn]
    split
    · exact .fail
    next f hf =>
    refine .ite (fun _ => .fail) fun _ => follows_next_bind fun a b y ds hmove => ?_
    cases hmove with
    | none => exact .fail
    | escape c _ => exact .failFlag
    | exchanged _ _ _ => exact (.failFlag : Follows _ (failFlag (.plain '$') .missingFlagsEnd) _ _)
    | plain c _ hc hkept =>
      refine .ite (fun hstop => ?_) fun _ => .ite (fun hflag => ?_) fun _ => .failFlag
      · exact .pure fun p q h => ⟨rfl, hstop, ds, .last hf ds, h⟩
      · rw [Context.IsCalm.after (.inl hx) (isNeutral_of_isFlagLetter c hflag)]
        refine (ih fuel' (by omega) c (before.union f) ds).post ?_
        rintro a b p q ⟨rfl, hstop, es, hletters, h⟩
        exact ⟨rfl, hstop, es, hletters.cons hf hflag, h⟩

theorem follows_readFlagsOff (hx : x.region = .row) (fuel fuel' : Nat) (hfuel : fuel ≤ fuel') (letter : Char)
    (before : Flags) (cs : List Char) :
    Follows (Twin t on x cs) (readFlagsOff fuel letter before) (readFlagsOff fuel' letter before)
      fun a b p q => b = a ∧ ∃ ds, Letters letter before.verbose a.verbose cs ':' ds ∧ Twin t on x ds p q := by
  induction fuel generalizing fuel' letter before cs with
  | zero => exact .throw
  | succ fuel ih =>
    obtain ⟨fuel', rfl⟩ : ∃ n, fuel' = n + 1 := ⟨fuel' - 1, by omega⟩
    have hcalm : x.IsCalm := .inl hx
    rw [readFlagsOff, readFlagsOff]
    split
    · exact .fail
    next f hf =>
    refine .ite (fun _ => .fail) fun _ => follows_next_bind fun a b y ds hmove => ?_
    cases hmove with
    | none => exact .fail
    | escape c _ => exact .failFlag
    | exchanged _ _ _ => exact (.failFlag : Follows _ (failFlag (.plain '$') .missingColon) _ _)
    | plain c _ hc hkept =>
      refine .ite (fun hstop => ?_) fun _ => .ite (fun hflag => ?_) fun _ => .failFlag
      · subst hstop
        rw [hcalm.after (by decide)]
        exact .pure fun p q h => ⟨rfl, ds, .last hf ds, h⟩
      · rw [hcalm.after (isNeutral_of_isFlagLetter c hflag)]
        refine (ih fuel' (by omega) c (before.union f) ds).post ?_
        rintro a b p q ⟨rfl, es, hletters, h⟩
        exact ⟨rfl, es, hletters.cons hf hflag, h⟩

/-! ### The switches of a group -/

/-- Inside a group. -/
def Context.pushed (x : Context) (spaced : Bool) : Context := ⟨.row, spaced, x.spaced :: x.outer⟩

theorem Context.opened_of_question (hcomment : cs.head? ≠ some '#') :
    x.opened ('?' :: cs) = ⟨.row, (spacing x.spaced ('?' :: cs)).1, (spacing x.spaced ('?' :: cs)).2 :: x.outer⟩ := by
  refine if_neg fun h => hcomment ?_
  cases cs with
  | nil => cases h
  | cons c cs =>
    have hsign : '#' = c := by simpa using h
    rw [← hsign]
    rfl

theorem spacing_letters {letters : List Char} {stop : Char} (hletters : letters.all isFlagLetter = true)
    (hstop : isFlagLetter stop = false) (ds : List Char) :
    (letters ++ stop :: ds).takeWhile isFlagLetter = letters ∧ (letters ++ stop :: ds).dropWhile isFlagLetter = stop :: ds := by
  rw [List.takeWhile_append_of_pos (List.all_eq_true.mp hletters), List.dropWhile_append_of_pos (List.all_eq_true.mp hletters),
    List.takeWhile_cons_of_neg (by simp [hstop]), List.dropWhile_cons_of_neg (by simp [hstop]), List.append_nil]
  exact ⟨rfl, rfl⟩

/-- The context behind the switches of a group, by the sign that ends them. -/
theorem spacing_of_letters {first stop : Char} {v : Bool} {ds : List Char} (hfirst : isFlagLetter first = true)
    (hstop : isFlagLetter stop = false) (h : Letters first false v cs stop ds) (s : Bool) :
    (stop = ')' → Context.spacing s ('?' :: first :: cs) = (s || v, s || v)) ∧
      (stop = ':' → Context.spacing s ('?' :: first :: cs) = (s || v, s)) ∧
      (stop = '-' →
        Context.spacing s ('?' :: first :: cs) = ((s || v) && !(ds.takeWhile isFlagLetter).contains 'x', s)) := by
  obtain ⟨letters, rfl, hletters, rfl⟩ := h
  obtain ⟨htake, hdrop⟩ := spacing_letters hletters hstop ds
  rw [Context.spacing, List.takeWhile_cons_of_pos hfirst, List.dropWhile_cons_of_pos hfirst, htake, hdrop, Bool.false_or]
  refine ⟨?_, ?_, ?_⟩ <;> rintro rfl <;> rfl

/-- The switches behind a dash are those that the context looks for there. -/
theorem follows_readFlagsBehindDash (hx : x.region = .row) :
    Follows (Twin t on x cs) readFlagsBehindDash readFlagsBehindDash fun a b p q =>
      b = a ∧ a.verbose = (cs.takeWhile isFlagLetter).contains 'x' ∧ Twins t on x p q := by
  refine .get_of fun p q h => ?_
  have hlength : p.rest.length + 1 ≤ q.rest.length + 1 := Nat.succ_le_succ (h.rest ▸ h.text.length_le)
  refine follows_next_bind fun a b y ds hmove => ?_
  cases hmove with
  | none => exact .fail
  | escape c _ => exact .failFlag
  | exchanged _ _ _ => exact (.failFlag : Follows _ (failFlag (.plain '$') .missingFlag) _ _)
  | plain c _ hc hkept =>
    refine .ite (fun hflag => ?_) fun _ => .failFlag
    rw [Context.IsCalm.after (.inl hx) (isNeutral_of_isFlagLetter c hflag)]
    refine (follows_readFlagsOff hx _ _ hlength c {} ds).post ?_
    rintro a b p q ⟨rfl, es, ⟨letters, rfl, hletters, hverbose⟩, htwin⟩
    refine ⟨rfl, ?_, es, htwin⟩
    rw [List.takeWhile_cons_of_pos hflag, (spacing_letters hletters (by decide) es).1, hverbose]
    rfl

theorem steady_finishFlags (on' off' : Flags) : Steady t on x (finishFlags on' off') (· = some (on', off')) :=
  .ite (fun _ => .fail) fun _ => .ite (fun _ => .fail) fun _ => .pure rfl

theorem Flags.union_assoc (a b c : Flags) : (a.union b).union c = a.union (b.union c) := by
  simp only [Flags.union, Bool.or_assoc]

/-- Switches for the whole expression are turned on at both places. -/
theorem Twin.switched {p q : Progress} (h : Twin t on x cs p q) (on' : Flags) :
    Twin t (on.union on') x cs { p with flags := p.flags.union on' } { q with flags := q.flags.union on' } :=
  { h with
    firstFlags := by rw [h.firstFlags, Flags.union_assoc]
    secondFlags := by rw [h.secondFlags, Flags.union_assoc] }

/-- Both read the same switches, and the context behind them has looked for them. -/
theorem follows_readFlags {first : Char} (hfirst : isFlagLetter first = true ∨ first = '-') :
    Follows (Twin t on (x.opened ('?' :: first :: cs)) cs) (readFlags first) (readFlags first) fun a b p q => b = a ∧
      match a with
      | none => ∃ on', Twins t (on.union on') ⟨.row, x.spaced || on'.verbose, x.outer⟩ p q
      | some (on', off') => Twins t on (x.pushed ((x.spaced || on'.verbose) && !off'.verbose)) p q := by
  have hcomment : (first :: cs).head? ≠ some '#' := by
    rintro ⟨⟩
    exact absurd hfirst (by decide)
  rw [Context.opened_of_question hcomment, readFlags]
  by_cases hdash : first = '-'
  · subst hdash
    refine (follows_readFlagsBehindDash rfl).bind_eq_of fun off hverbose => ?_
    refine (steady_finishFlags {} _).post ?_
    rintro a b p q ⟨rfl, rfl, h⟩
    refine ⟨rfl, ?_⟩
    have hspacing : Context.spacing x.spaced ('?' :: '-' :: cs) =
        (x.spaced && !(cs.takeWhile isFlagLetter).contains 'x', x.spaced) := by
      rw [Context.spacing, List.takeWhile_cons_of_neg (by decide), List.dropWhile_cons_of_neg (by decide)]
      simp
    rw [hspacing, ← hverbose] at h
    simpa [Context.pushed] using h
  · have hflag : isFlagLetter first = true := hfirst.resolve_right hdash
    rw [if_neg hdash]
    refine .get_of fun p q hpq => ?_
    have hlength : p.rest.length + 1 ≤ q.rest.length + 1 := Nat.succ_le_succ (hpq.rest ▸ hpq.text.length_le)
    refine (follows_readFlagsOn rfl _ _ hlength first {} cs).bind ?_
    rintro ⟨on', stop⟩ _ p' q' ⟨rfl, hstop, ds, hletters, htwin⟩
    have hcalm : isFlagLetter stop = false := by rcases hstop with h | h | h <;> rw [show stop = _ from h] <;> decide
    obtain ⟨hclose, hcolon, hdash⟩ := spacing_of_letters hflag hcalm hletters x.spaced
    refine (?_ : Follows (Twin t on _ ds) _ _ _) p' q' htwin
    rcases hstop with h | h | h
    · obtain rfl : stop = ')' := h
      rw [hclose rfl]
      refine Follows.bind (Q := fun _ _ => Twins t (on.union on') ⟨.row, x.spaced || on'.verbose, x.outer⟩) ?_
        fun _ _ => .pure fun p q h => ⟨rfl, on', h⟩
      exact .modify fun p q h => (h.switched on').twins
    · obtain rfl : stop = '-' := h
      rw [hdash rfl]
      refine .ite (fun h => absurd h (by decide)) fun _ => .ite (fun _ => .fail) fun _ => ?_
      refine (follows_readFlagsBehindDash rfl).bind_eq_of fun off hverbose => ?_
      refine (steady_finishFlags on' _).post ?_
      rintro a b p q ⟨rfl, rfl, h⟩
      rw [← hverbose] at h
      exact ⟨rfl, h⟩
    · obtain rfl : stop = ':' := h
      rw [hcolon rfl]
      refine .ite (fun h => absurd h (by decide)) fun _ => .ite (fun _ => .fail) fun _ => ?_
      refine ((steady_finishFlags on' {}).pre fun _ _ h => h.twins).post ?_
      rintro a b p q ⟨rfl, rfl, h⟩
      refine ⟨rfl, ?_⟩
      dsimp only
      rw [Bool.not_false, Bool.and_true]
      exact h

end Switches

/-! ### Names and numbers of groups -/

section Names

variable {t : Change} {on : Flags} {x : Context} {cs : List Char}

theorem Context.opened_of_head (h : cs.head? ≠ some '?') : x.opened cs = x.pushed x.spaced := by
  match cs with
  | [] => rfl
  | c :: cs =>
    have hc : c ≠ '?' := fun hc => h (by rw [hc]; rfl)
    rw [Context.opened, if_neg (by simp [hc.symm]), Context.spacing, Context.pushed]
    simp [hc]

/-- Behind the parenthesis that closes a group, the context is that before the group. -/
theorem Context.pushed_after (hx : x.region = .row) (v : Bool) (cs : List Char) : (x.pushed v).after ')' cs = x := by
  obtain ⟨region, spaced, outer⟩ := x
  obtain rfl : region = .row := hx
  rfl

theorem steady_groupNumber (name : String) : Steady t on x (groupNumber name) fun _ => True := by
  refine .get fun p q cs h => ?_
  rw [h.names]
  refine ⟨rfl, ?_⟩
  split
  · exact .pure trivial
  · exact .fail

theorem all_isNeutral_of_readGroupName {name group : String} {p q : Progress}
    (h : (if Text.isName name.toList then pure name else fail (.badName name) (name.length + 1) : Reading String).run p =
      .ok (group, q)) : name.toList.all isNeutral = true := by
  split_ifs at h with hname
  · exact all_isNeutral_of_isName hname
  · exact absurd h run_fail_ne_ok

/-- Both read the same name of a group, and go past the sign that ends it. -/
theorem follows_readGroupName (hx : x.IsCalm) {stop : Char} (hslash : stop ≠ '\\') (hsign : stop ≠ '$')
    (hafter : ∀ cs ds, x.after stop cs = x.after stop ds) : Follows (Twins t on x) (readGroupName stop) (readGroupName stop)
      fun a b p q => b = a ∧ Twins t on (x.after stop []) p q := by
  refine Follows.bind_of (D := fun name => name.toList.all isNeutral = true)
    (fun p q hpq name p' hname hneutral => follows_readUntil hx hslash hsign hafter hpq hname hneutral)
    (fun name p c p' h => all_isNeutral_of_readGroupName h) fun name _ => ?_
  exact .ite (fun _ => .pure fun _ _ h => ⟨rfl, h⟩) fun _ => .fail

theorem Twin.asking {p q : Progress} (h : Twin t on x cs p q) (n a b : Nat) : Twin t on x cs
    (if p.asked.any (·.1 == n) then p else { p with asked := p.asked ++ [(n, a)] })
    (if q.asked.any (·.1 == n) then q else { q with asked := q.asked ++ [(n, b)] }) := by
  have hany : ∀ asked : List (Nat × Nat), asked.any (·.1 == n) = (asked.map Prod.fst).any (· == n) := fun asked => by
    rw [List.any_map]
    rfl
  rw [hany, hany, h.asked]
  split_ifs
  · exact h
  · exact { h with asked := by rw [List.map_append, List.map_append, h.asked]; rfl }

theorem steady_conditionGroup (text : String) : Steady t on x (conditionGroup text) fun _ => True := by
  refine .ite (fun _ => steady_groupNumber text) fun _ => ?_
  split
  · exact .fail
  · refine .ite (fun _ => .fail) fun _ => Steady.bind (S := fun _ => True) ?_ fun _ _ => .pure trivial
    refine Follows.modify fun p q h => ⟨rfl, trivial, ?_⟩
    obtain ⟨cs, h⟩ := h
    exact (h.asking _ _ _).twins
  · exact .fail

theorem all_isNeutral_of_conditionGroup {text : String} {n : Nat} {p q : Progress}
    (h : (conditionGroup text).run p = .ok (n, q)) : text.toList.all isNeutral = true := by
  rw [conditionGroup] at h
  split_ifs at h with hname
  · exact all_isNeutral_of_isName hname
  · split at h
    · exact absurd h run_fail_ne_ok
    · next hnumber => exact all_isNeutral_of_integer? hnumber
    · exact absurd h run_fail_ne_ok

/-- Both read the same condition, and are behind its parenthesis. -/
theorem follows_readCondition (hx : x.region = .row) : Follows (Twin t on (x.opened cs) cs) readCondition readCondition
    fun a b p q => b = a ∧ Twins t on x p q := by
  refine Follows.bind_of (D := fun text => text.toList.all isNeutral = true) (S := Twins t on x)
    (fun p q hpq text p' htext hneutral => ?_) (fun text p c p' h => ?_) fun text _ => ?_
  · have hhead : cs.head? ≠ some '?' := by
      obtain ⟨more, -, hempty, -, rfl, -⟩ := (run_readUntil_eq_ok_iff (by decide)).mp htext
      obtain ⟨happend, -⟩ := splitBefore_spec ')' p.rest
      rw [String.toList_ofList] at hneutral
      rw [← hpq.rest, ← happend, List.head?_append_of_ne_nil _ hempty]
      intro hhead
      exact absurd (List.all_eq_true.mp hneutral '?' (List.mem_of_mem_head? hhead)) (by decide)
    rw [Context.opened_of_head hhead] at hpq
    obtain ⟨b, q', hq, hb, htwins⟩ := follows_readUntil (.inl rfl) (by decide) (by decide)
      (fun _ _ => (Context.pushed_after hx _ _).trans (Context.pushed_after hx _ _).symm) hpq.twins htext hneutral
    rw [Context.pushed_after hx] at htwins
    exact ⟨b, q', hq, hb, htwins⟩
  · obtain ⟨n, r, hgroup, -⟩ := run_bind_eq_ok_iff.mp h
    exact all_isNeutral_of_conditionGroup hgroup
  · refine (steady_conditionGroup _).andThen fun group _ => (steady_checkLookbehind group).andThen fun _ _ => ?_
    exact .pure fun _ _ h => ⟨rfl, h⟩

/-- Both read the same reference by name, and are behind its parenthesis. -/
theorem follows_readNamedReference (hx : x.region = .row) (v : Bool) : Follows (Twins t on (x.pushed v)) readNamedReference
    readNamedReference fun a b p q => b = a ∧ a.IsPlain ∧ Twins t on x p q := by
  refine (follows_readGroupName (.inl rfl) (by decide) (by decide)
    fun _ _ => (Context.pushed_after hx v _).trans (Context.pushed_after hx v _).symm).bind_eq fun name => ?_
  rw [Context.pushed_after hx]
  refine (steady_groupNumber _).andThen fun group _ => ?_
  refine Steady.get fun p q cs h => ?_
  rw [h.isClosed]
  exact ⟨rfl, .ite (fun _ => .fail) fun _ =>
    (steady_checkLookbehind group).bind fun _ _ => .pure (isPlain_backreference _)⟩

end Names

/-! ### Groups -/

section Groups

variable {t : Change} {on : Flags} {x : Context} {cs : List Char}

theorem steady_openGroup (name : Option String) : Steady t on x (openGroup name) fun _ => True := by
  refine Follows.get fun p q ⟨cs, h⟩ => ?_
  have hset : ∀ (r : Progress) (s : Progress) (n : Nat), Twin t on x cs r s →
      Follows (fun p' q' => p' = p ∧ q' = q) (set r >>= fun _ => pure n) (set s >>= fun _ => pure n)
        fun a b p q => b = a ∧ True ∧ Twins t on x p q := fun r s n hrs =>
    Follows.bind (Q := fun _ _ p' q' => p' = r ∧ q' = s)
      (fun _ _ _ _ _ hr => ⟨⟨⟩, s, rfl, (run_set_eq_ok_iff.mp hr).symm, rfl⟩)
      fun _ _ => .pure fun p' q' hpq => ⟨rfl, trivial, by rw [hpq.1, hpq.2]; exact hrs.twins⟩
  dsimp only
  rw [h.nextGroup]
  cases name with
  | none => exact hset _ _ _ { h with widths := by rw [h.widths] }
  | some name =>
    dsimp only
    rw [h.names]
    cases p.names.lookup name with
    | some earlier => exact .fail
    | none => exact hset _ _ _ { h with widths := by rw [h.widths], names := rfl }

/-- A group and its exchange are of one width. -/
theorem follows_closeGroup (number : Nat) {body : List Node} (hbody : NormalRow body) :
    Follows (Twins t on x) (closeGroup number body) (closeGroup number (exchangeRow t.all body))
      fun _ _ p q => Twins t on x p q := by
  refine .modify fun p q ⟨cs, h⟩ => ?_
  rw [h.width, widthOf_exchangeRow _ _ body hbody, h.widths]
  exact ⟨cs, { h with widths := rfl }⟩

/-- Both are behind the parenthesis that closes a group. -/
theorem follows_closeAt (hx : x.region = .row) (v : Bool) (start start' : Nat) :
    Follows (Twins t on (x.pushed v)) (closeAt start) (closeAt start') fun _ _ p q => Twins t on x p q := by
  refine .exists_pre fun cs => follows_accept_bind (by decide) (by decide) (fun ds _ => ?_) fun _ => .failAt
  rw [Context.pushed_after hx]
  exact .pure fun p q h => h.twins

/-! ### What a group is -/

/-- Whether a group is spaced out, from what it is and whether it stands where blanks count for nothing. -/
def Reading.Opening.spacedInside (spaced : Bool) : Opening → Bool
  | .plain on off => (spaced || on.verbose) && !off.verbose
  | _ => spaced

/-- The places behind the signs at the beginning of a group, by what it is: behind all of it if these signs are all of it. -/
def Opened (t : Change) (on : Flags) (x : Context) (opening : Opening) (p q : Progress) : Prop :=
  match opening with
  | .comment => Twins t on x p q
  | .switched => ∃ on', Twins t (on.union on') ⟨.row, x.spaced || on'.verbose, x.outer⟩ p q
  | .reference n => n.IsPlain ∧ Twins t on x p q
  | opening => Twins t on (x.pushed (opening.spacedInside x.spaced)) p q

/-- A sign that is no switch leaves what a parenthesis opens as it is outside. -/
theorem Context.opened_of_sign {c : Char} (hcomment : c ≠ '#') (hflag : isFlagLetter c = false) (hclose : c ≠ ')')
    (hdash : c ≠ '-') (cs : List Char) : x.opened ('?' :: c :: cs) = x.pushed x.spaced := by
  rw [Context.opened_of_question (by simpa using hcomment), Context.spacing,
    List.dropWhile_cons_of_neg (by simp [hflag]), List.takeWhile_cons_of_neg (by simp [hflag])]
  split
  · next heq => exact absurd (List.cons.inj heq).1 hclose
  · simp [Context.pushed]
  · next heq => exact absurd (List.cons.inj heq).1 hdash
  · rfl

/-- In a row, a character that is no sign leaves the context as it is. -/
theorem Context.pushed_after_of_ne {c : Char} (hset : c ≠ '[') (hopen : c ≠ '(') (hclose : c ≠ ')') (hline : c ≠ '#')
    (v : Bool) (cs : List Char) : (x.pushed v).after c cs = x.pushed v := by
  simp [Context.after, Context.pushed, hset, hopen, hclose, hline]

/-- A group whose sign is all there is before its parts. -/
theorem follows_sign {opening : Opening} (hopened : ∀ p q, Twins t on (x.pushed x.spaced) p q → Opened t on x opening p q) :
    Follows (Twin t on (x.pushed x.spaced) cs) (pure opening) (pure opening)
      fun a b p q => b = a ∧ Opened t on x a p q :=
  .pure fun p q h => ⟨rfl, hopened p q h.twins⟩

theorem follows_readOpeningFrom_P (hx : x.region = .row) (start start' : Nat) :
    Follows (Twin t on (x.pushed x.spaced) cs) (readOpeningFrom start (some (.plain 'P')))
      (readOpeningFrom start' (some (.plain 'P'))) fun a b p q => b = a ∧ Opened t on x a p q := by
  have hcalm : (x.pushed x.spaced).IsCalm := .inl rfl
  refine follows_accept_bind (by decide) (by decide) (fun ds _ => ?_) fun _ =>
    follows_accept_bind (by decide) (by decide) (fun ds _ => ?_) fun _ => follows_next_bind fun a _ _ _ _ => ?_
  · rw [hcalm.after (by decide)]
    refine .pre (P := Twins t on (x.pushed x.spaced)) ?_ fun _ _ h => h.twins
    refine (follows_readGroupName hcalm (by decide) (by decide)
      fun _ _ => (hcalm.after (by decide) _).trans (hcalm.after (by decide) _).symm).bind_eq fun name => ?_
    rw [hcalm.after (by decide)]
    exact .pure fun p q h => ⟨rfl, h⟩
  · rw [hcalm.after (by decide)]
    refine .pre (P := Twins t on (x.pushed x.spaced)) ?_ fun _ _ h => h.twins
    exact (follows_readNamedReference hx x.spaced).bind_eq fun n => .pure fun p q h => ⟨rfl, h⟩
  · cases a <;> exact .fail

theorem follows_readLookbehind {y : Context} {ds : List Char} {a b : Option Token}
    (h : Move t.all (x.pushed x.spaced) cs a b y ds) :
    Follows (Twin t on y ds) (readLookbehind a) (readLookbehind b) fun a b p q => b = a ∧ Opened t on x a p q := by
  cases h with
  | none => exact .fail
  | escape c => exact .fail
  | exchanged => exact (.fail : Follows _ (fail (.unknownExtension ['?', '<', '$']) 3) _ _)
  | plain c _ hc hkept =>
    by_cases hequal : c = '='
    · subst hequal
      rw [Context.pushed_after_of_ne (by decide) (by decide) (by decide) (by decide)]
      exact follows_sign fun _ _ h => h
    by_cases hnot : c = '!'
    · subst hnot
      rw [Context.pushed_after_of_ne (by decide) (by decide) (by decide) (by decide)]
      exact follows_sign fun _ _ h => h
    rw [readLookbehind.eq_4 (.plain c) (by simpa using hequal) (by simpa using hnot)]
    exact .fail

/-- A comment is read up to its parenthesis. -/
theorem follows_readOpeningFrom_comment (hx : x.region = .row) (start start' : Nat) {es : List Char} :
    Follows (Twin t on ((x.opened ('?' :: '#' :: es)).after '#' es) es) (readOpeningFrom start (some (.plain '#')))
      (readOpeningFrom start' (some (.plain '#'))) fun a b p q => b = a ∧ Opened t on x a p q := by
  have hy : (x.opened ('?' :: '#' :: es)).after '#' es = x.within .comment := rfl
  rw [hy]
  refine .pre (P := Twins t on (x.within .comment)) ?_ fun _ _ h => h.twins
  refine (follows_skipPast (by decide) (by decide) (fun c _ hc => ?_) rfl fun _ => rfl).bind_eq fun found => ?_
  · simp [Context.after, Context.within, hc]
  have hback : { x.within .comment with region := .row } = x := by rw [← hx]; rfl
  rw [hback]
  exact .ite (fun _ => .pure fun p q h => ⟨rfl, h⟩) fun _ => .failAt

/-- A letter or a dash behind the question mark begins switches. -/
theorem readOpeningFrom_of_flag {c : Char} (hflag : isFlagLetter c = true ∨ c = '-') (start : Nat) :
    readOpeningFrom start (some (.plain c)) = readFlags c >>= fun
      | none => pure .switched
      | some (on, off) => pure (.plain on off) := by
  have hne : ∀ d, isFlagLetter d = false → d ≠ '-' → c ≠ d := by
    rintro d hd hdash rfl
    exact hflag.elim (fun h => by simp [hd] at h) hdash
  refine (readOpeningFrom.eq_10 start c (hne _ (by decide) (by decide)) (hne _ (by decide) (by decide))
    (hne _ (by decide) (by decide)) (hne _ (by decide) (by decide)) (hne _ (by decide) (by decide))
    (hne _ (by decide) (by decide)) (hne _ (by decide) (by decide)) (hne _ (by decide) (by decide))).trans ?_
  exact if_pos hflag

/-- Switches are read up to the sign behind them. -/
theorem follows_readOpeningFrom_flag (start start' : Nat) {c : Char} {es : List Char}
    (hflag : isFlagLetter c = true ∨ c = '-') : Follows (Twin t on ((x.opened ('?' :: c :: es)).after c es) es)
      (readOpeningFrom start (some (.plain c))) (readOpeningFrom start' (some (.plain c)))
      fun a b p q => b = a ∧ Opened t on x a p q := by
  have hneutral : isNeutral c = true ∧ c ≠ '#' := by
    rcases hflag with hflag | rfl
    · refine ⟨isNeutral_of_isFlagLetter c hflag, ?_⟩
      rintro rfl
      cases hflag
    · decide
  have hrow : (x.opened ('?' :: c :: es)).IsCalm := by
    rw [Context.opened_of_question (by simpa using hneutral.2)]
    exact .inl rfl
  rw [hrow.after hneutral.1, readOpeningFrom_of_flag hflag, readOpeningFrom_of_flag hflag]
  refine (follows_readFlags hflag).bind_eq ?_
  rintro (_ | ⟨on', off'⟩)
  · exact .pure fun p q h => ⟨rfl, h⟩
  · exact .pure fun p q h => ⟨rfl, h⟩

/-- Of any other group it is read what it is, by one sign or more. -/
theorem follows_readOpeningFrom_sign (hx : x.region = .row) (start start' : Nat) {c : Char} {es : List Char}
    (hcomment : c ≠ '#') (hflag : ¬(isFlagLetter c = true ∨ c = '-')) :
    Follows (Twin t on ((x.opened ('?' :: c :: es)).after c es) es) (readOpeningFrom start (some (.plain c)))
      (readOpeningFrom start' (some (.plain c))) fun a b p q => b = a ∧ Opened t on x a p q := by
  obtain ⟨hletter, hdash⟩ := not_or.mp hflag
  by_cases hclose : c = ')'
  · subst hclose
    exact .fail
  rw [Context.opened_of_sign hcomment (by simpa using hletter) hclose hdash]
  by_cases hcondition : c = '('
  · subst hcondition
    exact (follows_readCondition rfl).bind_eq fun group => .pure fun p q h => ⟨rfl, h⟩
  by_cases hset : c = '['
  · subst hset
    exact .fail
  rw [Context.pushed_after_of_ne hset hcondition hclose hcomment]
  by_cases hP : c = 'P'
  · subst hP
    exact follows_readOpeningFrom_P hx start start'
  by_cases hbehind : c = '<'
  · subst hbehind
    exact follows_next_bind fun a b y ds hmove => follows_readLookbehind hmove
  by_cases hcolon : c = ':'
  · subst hcolon
    refine follows_sign fun p q h => ?_
    simpa [Opened, Opening.spacedInside] using h
  by_cases hequal : c = '='
  · subst hequal
    exact follows_sign fun _ _ h => h
  by_cases hnot : c = '!'
  · subst hnot
    exact follows_sign fun _ _ h => h
  by_cases hatomic : c = '>'
  · subst hatomic
    exact follows_sign fun _ _ h => h
  rw [readOpeningFrom.eq_10 start c hP hcolon hcomment hequal hnot hbehind hcondition hatomic, if_neg hflag]
  exact .fail

/-- A comment and a row of switches are read up to their parenthesis, of any other group what it is. -/
theorem follows_readOpeningFrom (hx : x.region = .row) (start start' : Nat) {y : Context} {ds es : List Char}
    {a b : Option Token} (h : Move t.all (x.opened ('?' :: ds)) ds a b y es) :
    Follows (Twin t on y es) (readOpeningFrom start a) (readOpeningFrom start' b)
      fun a b p q => b = a ∧ Opened t on x a p q := by
  cases h with
  | none => exact .fail
  | escape c => exact .fail
  | exchanged => exact (.fail : Follows _ (fail (.unknownExtension ['?', '$']) 2) _ _)
  | plain c _ hc hkept =>
    by_cases hcomment : c = '#'
    · subst hcomment
      exact follows_readOpeningFrom_comment hx start start'
    by_cases hflag : isFlagLetter c = true ∨ c = '-'
    · exact follows_readOpeningFrom_flag start start' hflag
    · exact follows_readOpeningFrom_sign hx start start' hcomment hflag

/-- Both read what a group is behind its parenthesis, alike and to the same context. -/
theorem follows_readOpening (hx : x.region = .row) (start start' : Nat) :
    Follows (Twin t on (x.opened cs) cs) (readOpening start) (readOpening start')
      fun a b p q => b = a ∧ Opened t on x a p q := by
  refine follows_accept_bind (by decide) (by decide) ?_ fun hhead => ?_
  · rintro ds rfl
    have hafter : (x.opened ('?' :: ds)).after '?' ds = x.opened ('?' :: ds) := by
      by_cases hcomment : ds.head? = some '#'
      · obtain ⟨es, rfl⟩ := List.head?_eq_some_iff.mp hcomment
        rfl
      · rw [Context.opened_of_question hcomment]
        rfl
    rw [hafter]
    exact follows_next_bind fun a b y es hmove => follows_readOpeningFrom hx start start' hmove
  · rw [Context.opened_of_head hhead]
    exact follows_sign fun _ _ h => h

end Groups

end RuleTree.Regex
