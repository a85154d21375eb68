import RuleTree.Proofs.Regex.Openings

/-!
# Reading exchanged expressions

Where a text is read, so is the text with its signs exchanged, and its tree is the exchanged tree. A step reads the same part
at both places, or a sign for the end of a line at the first and a sign for the end of the text at the second; the whole
follows by induction on the steps.
-/

namespace RuleTree.Regex

open Reading

/-! ### Parts without parts -/

section Plain

variable {t : Change} {on : Flags} {x : Context} {cs : List Char} {before : List Node}

theorem within_row (hx : x.region = .row) : x.within .row = x := by
  rw [Context.within, ← hx]

theorem Rows.cons {n : Node} (hn : n.IsPlain) (hbefore : ∀ m ∈ before, m.IsHeld) {p q : Progress} (h : Twins t on x p q) :
    Rows t on x (n :: before) (n :: before.map (Node.exchange t.all)) p q :=
  ⟨by rw [List.map_cons, hn.exchange_eq], List.forall_mem_cons.mpr ⟨hn.isHeld, hbefore⟩, h⟩

variable [Text.CharacterNames]

/-- Both read the same part, or repeat the same one. -/
theorem follows_readPlain (hx : x.region = .row) (place place' : Nat) {c : Char} (hopen : c ≠ '(') (hclose : c ≠ ')')
    (hline : ¬(c = '#' ∧ x.spaced = true)) (hkept : c = '$' → t.all = false) (hbefore : ∀ n ∈ before, n.IsHeld) :
    Follows (Twin t on (x.after c cs) cs) (readPlain place c before)
      (readPlain place' c (before.map (Node.exchange t.all))) (Rows t on x) := by
  by_cases hset : c = '['
  · subst hset
    refine (follows_readSet x hx).bind_eq_of fun n hn => ?_
    rw [within_row hx]
    exact .pure fun p q h => .cons hn hbefore h
  have hafter : x.after c cs = x := by simp [Context.after, hx, hset, hopen, hclose, hline]
  rw [hafter]
  refine .pre (P := Twins t on x) ?_ fun _ _ h => h.twins
  have hplain : ∀ n : Node, n.IsPlain → Follows (Twins t on x) (pure (n :: before))
      (pure (n :: before.map (Node.exchange t.all))) (Rows t on x) :=
    fun n hn => .pure fun p q h => .cons hn hbefore h
  unfold readPlain
  split
  · exact absurd rfl hset
  · exact hplain _ isPlain_any
  · exact hplain _ (isPlain_anchor (by decide))
  · have hnone := hkept rfl
    refine .pure fun p q h => ⟨?_, List.forall_mem_cons.mpr ⟨isHeld_anchor _, hbefore⟩, h⟩
    rw [List.map_cons, Node.exchange, hnone]
    rfl
  · exact follows_readRepetition hx _ _ _ _ hbefore
  · exact follows_readRepetition hx _ _ _ _ hbefore
  · exact follows_readRepetition hx _ _ _ _ hbefore
  · refine (steady_readCounts (.inl hx)).andThen fun counts _ => ?_
    rcases counts with _ | ⟨least, most⟩
    · exact hplain _ (isPlain_literal _ _)
    · exact follows_readRepetition hx _ _ _ _ hbefore
  · exact hplain _ (isPlain_literal _ _)

end Plain

/-! ### What is read at both places -/

/-- Places behind a row: in its context, or where it may switch for the whole expression, with more switches turned on. -/
def After (t : Change) (start : Bool) (on : Flags) (x : Context) (p q : Progress) : Prop :=
  ∃ on', (start = false → on' = {}) ∧ Twins t (on.union on') ⟨.row, x.spaced || on'.verbose, x.outer⟩ p q

/-- Whether blanks count for nothing in a context as they do for the whole expression. -/
def Context.IsWhole (t : Change) (on : Flags) (x : Context) : Prop := x.spaced = (t.first.union on).verbose

section Steps

variable {t : Change} {on : Flags} {x : Context} {fuel : Nat}

theorem After.of_twins (hx : x.region = .row) {start : Bool} {p q : Progress} (h : Twins t on x p q) :
    After t start on x p q := by
  refine ⟨{}, fun _ => rfl, ?_⟩
  rw [Flags.union_empty, Bool.or_false, ← hx]
  exact h

theorem After.twins (hx : x.region = .row) {p q : Progress} (h : After t false on x p q) : Twins t on x p q := by
  obtain ⟨on', hnone, h⟩ := h
  rw [hnone rfl, Flags.union_empty, Bool.or_false, ← hx] at h
  exact h

theorem After.trans {start : Bool} {on' : Flags} (hstart : start = false → on' = {}) {p q : Progress}
    (h : After t start (on.union on') ⟨.row, x.spaced || on'.verbose, x.outer⟩ p q) : After t start on x p q := by
  obtain ⟨on'', hnone, h⟩ := h
  refine ⟨on'.union on'', fun hfalse => ?_, ?_⟩
  · rw [hstart hfalse, hnone hfalse, Flags.union_empty]
  · have hspaced : (x.spaced || (on'.union on'').verbose) = ((x.spaced || on'.verbose) || on''.verbose) :=
      (Bool.or_assoc _ _ _).symm
    rw [← Flags.union_assoc, hspaced]
    exact h

/-- At the end of a row its parts are turned around and out of their brackets. -/
theorem follows_finishRow (hx : x.region = .row) (start : Bool) {before : List Node} (hbefore : ∀ n ∈ before, n.IsHeld)
    {P : Progress → Progress → Prop} (hP : ∀ p q, P p q → Twins t on x p q) :
    Follows P (pure (before.reverse.flatMap Node.unwrapped))
      (pure ((before.map (Node.exchange t.all)).reverse.flatMap Node.unwrapped))
      fun a b p q => b = exchangeRow t.all a ∧ NormalRow a ∧ After t start on x p q := by
  obtain ⟨hnormal, heq⟩ := flatMap_unwrapped t.all hbefore
  exact .pure fun p q h => ⟨heq, hnormal, .of_twins hx (hP p q h)⟩

theorem isNeutral_of_isSpacing (c : Char) (h : isSpacing c = true) : isNeutral c = true := isNeutral_of (by decide) c h

theorem Context.IsWhole.union {on' : Flags} (h : x.IsWhole t on) :
    Context.IsWhole t (on.union on') ⟨.row, x.spaced || on'.verbose, x.outer⟩ := by
  rw [Context.IsWhole, ← Flags.union_assoc, show x.spaced = _ from h]
  rfl

theorem follows_beginLook (behind : Bool) :
    Follows (Twins t on x) (beginLook behind) (beginLook behind) fun _ _ => Twins t on x := by
  refine .modify fun p q ⟨cs, h⟩ => ⟨cs, ?_⟩
  rw [h.beforeLookbehind, h.nextGroup]
  split_ifs
  · exact { h with beforeLookbehind := rfl }
  · exact h

theorem follows_endLook {before : Option Nat} : Follows (Twins t on x) (modify fun p => { p with beforeLookbehind := before })
    (modify fun p => { p with beforeLookbehind := before }) fun _ _ => Twins t on x :=
  .modify fun _ _ ⟨cs, h⟩ => ⟨cs, { h with beforeLookbehind := rfl }⟩

variable [Text.CharacterNames]

/-- A row is read at both places. -/
def RowFollows (t : Change) (fuel : Nat) : Prop :=
  ∀ fuel' ≥ fuel, ∀ (start : Bool) (on : Flags) (x : Context) (before : List Node), x.region = .row →
    (start = true → x.IsWhole t on) → (∀ n ∈ before, n.IsHeld) →
    Follows (Twins t on x) (readRow x.spaced start fuel before)
      (readRow x.spaced start fuel' (before.map (Node.exchange t.all)))
      fun a b p q => b = exchangeRow t.all a ∧ NormalRow a ∧ After t start on x p q

def AlternativesFollow (t : Change) (fuel : Nat) : Prop :=
  ∀ fuel' ≥ fuel, ∀ (verbose outermost : Bool) (on : Flags) (x : Context) (before : List (List Node)), x.region = .row →
    (outermost = false → verbose = x.spaced) → (outermost = true → x.IsWhole t on) → NormalRows before →
    Follows (Twins t on x) (readAlternatives verbose outermost fuel before)
      (readAlternatives verbose outermost fuel' (exchangeRows t.all before))
      fun a b p q => b = exchangeRows t.all a ∧ NormalRows a ∧ Twins t on x p q

def ChoiceFollows (t : Change) (fuel : Nat) : Prop :=
  ∀ fuel' ≥ fuel, ∀ (outermost : Bool) (on : Flags) (x : Context), x.region = .row → (outermost = true → x.IsWhole t on) →
    Follows (Twins t on x) (readChoice x.spaced outermost fuel) (readChoice x.spaced outermost fuel')
      fun a b p q => b = exchangeRow t.all a ∧ NormalRow a ∧ After t outermost on x p q

def GroupFollows (t : Change) (fuel : Nat) : Prop :=
  ∀ fuel' ≥ fuel, ∀ (on : Flags) (x : Context) (place place' : Nat) (opening : Opening), x.region = .row →
    opening ≠ .switched → Follows (Opened t on x opening) (readGroup x.spaced place fuel opening)
      (readGroup x.spaced place' fuel' opening)
      fun a b p q => b = a.exchange t.all ∧ a.IsHeld ∧ Twins t on x p q

/-- What follows a parenthesis: nothing, switches for the whole, or a part. -/
theorem follows_opened (hrow : RowFollows t fuel) (hgroup : GroupFollows t fuel) {fuel' : Nat} (hfuel : fuel' ≥ fuel)
    (hx : x.region = .row) {start : Bool} (hwhole : start = true → x.IsWhole t on) {before : List Node}
    (hbefore : ∀ n ∈ before, n.IsHeld) (place place' : Nat) (cs : List Char) :
    Follows (Twin t on (x.opened cs) cs)
      (readOpening place >>= fun
        | .comment => readRow x.spaced start fuel before
        | .switched => if start && before.isEmpty then get >>= fun p => readRow p.flags.verbose start fuel before
          else failAt .misplacedFlags place
        | .reference node => readRow x.spaced start fuel (node :: before)
        | opening => readGroup x.spaced place fuel opening >>= fun n => readRow x.spaced start fuel (n :: before))
      (readOpening place' >>= fun
        | .comment => readRow x.spaced start fuel' (before.map (Node.exchange t.all))
        | .switched => if start && (before.map (Node.exchange t.all)).isEmpty then
            get >>= fun p => readRow p.flags.verbose start fuel' (before.map (Node.exchange t.all))
          else failAt .misplacedFlags place'
        | .reference node => readRow x.spaced start fuel' (node :: before.map (Node.exchange t.all))
        | opening => readGroup x.spaced place' fuel' opening >>= fun n =>
            readRow x.spaced start fuel' (n :: before.map (Node.exchange t.all)))
      fun a b p q => b = exchangeRow t.all a ∧ NormalRow a ∧ After t start on x p q := by
  have hgo : ∀ ns : List Node, (∀ n ∈ ns, n.IsHeld) → Follows (Twins t on x) (readRow x.spaced start fuel ns)
      (readRow x.spaced start fuel' (ns.map (Node.exchange t.all)))
      fun a b p q => b = exchangeRow t.all a ∧ NormalRow a ∧ After t start on x p q :=
    fun ns hns => hrow fuel' hfuel start on x ns hx hwhole hns
  have hpart : ∀ opening : Opening, opening ≠ .switched → Follows (Opened t on x opening)
      (readGroup x.spaced place fuel opening >>= fun n => readRow x.spaced start fuel (n :: before))
      (readGroup x.spaced place' fuel' opening >>= fun n =>
        readRow x.spaced start fuel' (n :: before.map (Node.exchange t.all)))
      fun a b p q => b = exchangeRow t.all a ∧ NormalRow a ∧ After t start on x p q := by
    intro opening hopening
    exact (hgroup fuel' hfuel on x place place' opening hx hopening).bind_eq_of fun n hn =>
      hgo (n :: before) (List.forall_mem_cons.mpr ⟨hn, hbefore⟩)
  refine (follows_readOpening hx place place').bind_eq fun opening => ?_
  cases opening with
  | comment => exact hgo before hbefore
  | switched =>
    refine .ite_iff (by rw [List.isEmpty_map]) (fun hfirst => ?_) fun _ => .failAt
    obtain ⟨rfl, -⟩ := (Bool.and_eq_true _ _).mp hfirst
    refine .exists_pre fun on' => .get_of fun p q h => ?_
    obtain ⟨ds, h⟩ := h
    have hspaced : p.flags.verbose = (x.spaced || on'.verbose) := by
      rw [h.firstFlags, ← Flags.union_assoc, hwhole rfl]
      rfl
    rw [h.verbose, hspaced]
    refine (hrow fuel' hfuel true (on.union on') ⟨.row, x.spaced || on'.verbose, x.outer⟩ before rfl (fun _ => ?_)
      hbefore).post fun a b p q h => ⟨h.1, h.2.1, h.2.2.trans (by simp)⟩
    rw [Context.IsWhole, ← Flags.union_assoc, hwhole rfl]
    rfl
  | reference n =>
    refine .of_pre fun p q h => ?_
    have hns := hgo (n :: before) (List.forall_mem_cons.mpr ⟨h.1.isHeld, hbefore⟩)
    rw [List.map_cons, h.1.exchange_eq] at hns
    exact hns.pre fun _ _ h => h.2
  | conditional group => exact hpart _ nofun
  | look behind negated => exact hpart _ nofun
  | atomic => exact hpart _ nofun
  | capture name => exact hpart _ nofun
  | plain on' off' => exact hpart _ nofun

theorem rowFollows_succ (hrow : RowFollows t fuel) (hgroup : GroupFollows t fuel) : RowFollows t (fuel + 1) := by
  intro fuel' hfuel start on x before hx hwhole hbefore
  obtain ⟨fuel', rfl⟩ : ∃ n, fuel' = n + 1 := ⟨fuel' - 1, by omega⟩
  have hcalm : x.IsCalm := .inl hx
  have hgo : ∀ ns : List Node, (∀ n ∈ ns, n.IsHeld) → Follows (Twins t on x) (readRow x.spaced start fuel ns)
      (readRow x.spaced start fuel' (ns.map (Node.exchange t.all)))
      fun a b p q => b = exchangeRow t.all a ∧ NormalRow a ∧ After t start on x p q :=
    fun ns hns => hrow fuel' (by omega) start on x ns hx hwhole hns
  rw [readRow, readRow]
  refine .exists_pre fun cs => follows_peek.bind fun a b => .of_pre fun p q h => ?_
  obtain ⟨y, ds, hmove⟩ := h.move
  have hadvance : Follows (Facing t on x cs _ _) _ _ _ := follows_advance hmove
  cases hmove with
  | none => exact follows_finishRow hx start hbefore fun _ _ h => h.1.twins
  | escape c _ =>
    rw [hcalm.afterEscape] at hadvance
    refine hadvance.bind fun _ _ => .pre (P := Twins t on x) ?_ fun _ _ h => h.twins
    refine (steady_readEscape hcalm c).andThen fun n hn => ?_
    have hns := hgo (n :: before) (List.forall_mem_cons.mpr ⟨hn.isHeld, hbefore⟩)
    rwa [List.map_cons, hn.exchange_eq] at hns
  | exchanged _ hall hset =>
    have hns := hgo (.anchor .lineEnd :: before) (List.forall_mem_cons.mpr ⟨isHeld_anchor _, hbefore⟩)
    have hsign : (Node.anchor .lineEnd).exchange t.all = .anchor .textEnd := by
      rw [hall]
      rfl
    rw [List.map_cons, hsign] at hns
    have hrow : x.after '$' ds = x := by simp [Context.after, hx]
    dsimp only
    rw [if_neg (by decide)]
    refine .get_left fun p q _ => hadvance.bind fun _ _ => ?_
    rw [if_neg (by simp [isSpacing]), if_neg (by simp), if_neg (by decide), hrow]
    exact hns.pre fun _ _ h => h.twins
  | plain c _ hc hkept =>
    refine .ite (fun _ => follows_finishRow hx start hbefore fun _ _ h => h.1.twins) fun hend => ?_
    obtain ⟨-, hclose⟩ := not_or.mp hend
    refine .get_of fun p q _ => hadvance.bind fun _ _ => .ite (fun hspacing => ?_) fun _ =>
      .ite (fun hline => ?_) fun hline => ?_
    · obtain ⟨-, hspacing⟩ := (Bool.and_eq_true _ _).mp hspacing
      rw [hcalm.after (isNeutral_of_isSpacing c hspacing)]
      exact (hgo before hbefore).pre fun _ _ h => h.twins
    · obtain ⟨hspaced, hsign⟩ := (Bool.and_eq_true _ _).mp hline
      obtain rfl := beq_iff_eq.mp hsign
      have hregion : x.after '#' ds = x.within .line := by simp [Context.after, Context.within, hx, hspaced]
      rw [hregion]
      refine .pre (P := Twins t on (x.within .line)) ?_ fun _ _ h => h.twins
      refine (follows_skipPast (by decide) (by decide) (fun d _ hd => ?_) rfl fun _ => rfl).bind_eq fun _ => ?_
      · simp [Context.after, Context.within, hd]
      have hback : { x.within .line with region := .row } = x := within_row hx
      rw [hback]
      exact hgo before hbefore
    · by_cases hopen : c = '('
      · subst hopen
        have hregion : x.after '(' ds = x.opened ds := by simp [Context.after, hx]
        rw [hregion]
        exact follows_opened hrow hgroup (by omega) hx hwhole hbefore _ _ ds
      · rw [if_neg hopen, if_neg hopen]
        refine (follows_readPlain hx _ _ hopen hclose (fun h => hline ?_) (fun hsign => ?_) hbefore).bind_eq_of hgo
        · rw [h.1, h.2]
          rfl
        · exact Bool.eq_false_iff.mpr fun hall => hkept hsign hall hx

theorem alternativesFollow_succ (hrow : RowFollows t fuel) (hmore : AlternativesFollow t fuel) :
    AlternativesFollow t (fuel + 1) := by
  intro fuel' hfuel verbose outermost on x before hx hverbose hwhole hbefore
  obtain ⟨fuel', rfl⟩ : ∃ n, fuel' = n + 1 := ⟨fuel' - 1, by omega⟩
  rw [readAlternatives, readAlternatives]
  refine (follows_accept_calm (by decide) (by decide) (Context.IsCalm.after (.inl hx) (by decide))).bind_eq fun more => ?_
  refine .ite (fun _ => .get_of fun p q ⟨cs, h⟩ => ?_) fun _ => .pure fun p q h => ⟨rfl, hbefore, h⟩
  have hspaced : (if outermost = true then p.flags.verbose else verbose) = x.spaced := by
    cases outermost with
    | false => exact hverbose rfl
    | true =>
      rw [if_pos rfl, h.firstFlags]
      exact (hwhole rfl).symm
  dsimp only
  rw [h.verbose, hspaced]
  refine (hrow fuel' (by omega) false on x [] hx (by simp) (by simp)).bind_eq_of fun row hrow => ?_
  have hrows : exchangeRows t.all before ++ [exchangeRow t.all row] = exchangeRows t.all (before ++ [row]) := by
    simp only [exchangeRows_eq_map, List.map_append, List.map_cons, List.map_nil]
  rw [hrows]
  refine (hmore fuel' (by omega) x.spaced outermost on x (before ++ [row]) hx (fun _ => rfl) hwhole ?_).pre
    fun _ _ h => h.twins hx
  refine normalRows_iff.mpr fun r hr => ?_
  rcases List.mem_append.mp hr with hr | hr
  · exact normalRows_iff.mp hbefore r hr
  · rwa [List.mem_singleton.mp hr]

theorem choiceFollows_succ (hrow : RowFollows t fuel) (hmore : AlternativesFollow t fuel) : ChoiceFollows t (fuel + 1) := by
  intro fuel' hfuel outermost on x hx hwhole
  obtain ⟨fuel', rfl⟩ : ∃ n, fuel' = n + 1 := ⟨fuel' - 1, by omega⟩
  rw [readChoice, readChoice]
  refine (hrow fuel' (by omega) outermost on x [] hx hwhole (by simp)).bind_eq_of fun first hfirst => ?_
  refine .exists_pre fun on' => .of_pre fun _ _ hgrown => ?_
  have hverbose : outermost = false → x.spaced = (x.spaced || on'.verbose) := fun h => by
    rw [hgrown.1 h]
    exact (Bool.or_false _).symm
  refine ((hmore fuel' (by omega) x.spaced outermost (on.union on') ⟨.row, x.spaced || on'.verbose, x.outer⟩
    [first] rfl hverbose (fun h => (hwhole h).union) ⟨hfirst, trivial⟩).pre fun _ _ h => h.2).bind_eq_of fun rows hrows => ?_
  rw [← exchangeRow_choice]
  exact .pure fun p q h => ⟨rfl, normalRow_choice hrows, on', hgrown.1, h⟩

/-- The parts of a group and the parenthesis behind them. -/
theorem follows_body (hchoice : ChoiceFollows t fuel) {fuel' : Nat} (hfuel : fuel' ≥ fuel) (hx : x.region = .row) (v : Bool)
    (place place' : Nat) {γ : Type} {K L : List Node → Reading γ} {R : γ → γ → Progress → Progress → Prop}
    (hgo : ∀ body, NormalRow body → Follows (Twins t on x) (K body) (L (exchangeRow t.all body)) R) :
    Follows (Twins t on (x.pushed v)) (readChoice v false fuel >>= fun body => closeAt place >>= fun _ => K body)
      (readChoice v false fuel' >>= fun body => closeAt place' >>= fun _ => L body) R := by
  refine (hchoice fuel' hfuel false on (x.pushed v) rfl (by simp)).bind_eq_of fun body hbody => ?_
  exact ((follows_closeAt hx v place place').pre fun _ _ h => h.twins rfl).bind fun _ _ => hgo _ hbody

theorem groupFollows_look (hchoice : ChoiceFollows t fuel) {fuel' : Nat} (hfuel : fuel' ≥ fuel) (hx : x.region = .row)
    (place place' : Nat) (behind negated : Bool) :
    Follows (Twins t on (x.pushed x.spaced)) (readGroup x.spaced place (fuel + 1) (.look behind negated))
      (readGroup x.spaced place' (fuel' + 1) (.look behind negated))
      fun a b p q => b = a.exchange t.all ∧ a.IsHeld ∧ Twins t on x p q := by
  rw [readGroup, readGroup]
  refine .get_of fun p q ⟨cs, h⟩ => ?_
  dsimp only
  rw [h.beforeLookbehind]
  refine (follows_beginLook behind).bind fun _ _ => ?_
  refine (hchoice fuel' hfuel false on (x.pushed x.spaced) rfl (by simp)).bind_eq_of fun body hbody => ?_
  refine (follows_endLook.pre fun _ _ h => h.twins rfl).bind fun _ _ => ?_
  refine (follows_closeAt hx x.spaced place place').bind fun _ _ => .get_of fun p q ⟨cs, h⟩ => ?_
  rw [h.width, widthOf_exchangeRow _ _ _ hbody]
  exact .ite (fun _ => .pure fun p q h => ⟨rfl, ⟨hbody, nofun⟩, h⟩) fun _ => .pure fun p q h => ⟨rfl, ⟨hbody, nofun⟩, h⟩

theorem groupFollows_conditional (hrow : RowFollows t fuel) {fuel' : Nat} (hfuel : fuel' ≥ fuel) (hx : x.region = .row)
    (place place' group : Nat) :
    Follows (Twins t on (x.pushed x.spaced)) (readGroup x.spaced place (fuel + 1) (.conditional group))
      (readGroup x.spaced place' (fuel' + 1) (.conditional group))
      fun a b p q => b = a.exchange t.all ∧ a.IsHeld ∧ Twins t on x p q := by
  have hcalm : (x.pushed x.spaced).IsCalm := .inl rfl
  have hclose : ∀ present absent, NormalRow present → NormalRow absent → Follows (Twins t on (x.pushed x.spaced))
      (closeAt place >>= fun _ => pure (Node.conditional group present absent))
      (closeAt place' >>= fun _ =>
        pure (Node.conditional group (exchangeRow t.all present) (exchangeRow t.all absent)))
      fun a b p q => b = a.exchange t.all ∧ a.IsHeld ∧ Twins t on x p q :=
    fun present absent hpresent habsent => (follows_closeAt hx x.spaced place place').bind fun _ _ =>
      .pure fun p q h => ⟨rfl, ⟨⟨hpresent, habsent⟩, nofun⟩, h⟩
  rw [readGroup, readGroup]
  refine (hrow fuel' hfuel false on (x.pushed x.spaced) [] rfl (by simp) (by simp)).bind_eq_of fun present hpresent => ?_
  refine ((follows_accept_calm (by decide) (by decide) (hcalm.after (by decide))).pre fun _ _ h => h.twins rfl).bind_eq
    fun more => ?_
  refine .ite (fun _ => ?_) fun _ => hclose _ [] hpresent trivial
  refine (hrow fuel' hfuel false on (x.pushed x.spaced) [] rfl (by simp) (by simp)).bind_eq_of fun absent habsent => ?_
  refine .pre (P := Twins t on (x.pushed x.spaced)) ?_ fun _ _ h => h.twins rfl
  refine .exists_pre fun cs => follows_peek.bind fun a b => .of_pre fun p q h => ?_
  have hbar : a = some (.plain '|') ↔ b = some (.plain '|') := by
    obtain ⟨y, ds, hmove⟩ := h.move
    cases hmove <;> simp
  exact .ite_iff hbar (fun _ => .fail) fun _ =>
    (hclose _ _ hpresent habsent).pre fun _ _ h => h.1.twins

theorem groupFollows_succ (hrow : RowFollows t fuel) (hchoice : ChoiceFollows t fuel) : GroupFollows t (fuel + 1) := by
  intro fuel' hfuel on x place place' opening hx hopening
  obtain ⟨fuel', rfl⟩ : ∃ n, fuel' = n + 1 := ⟨fuel' - 1, by omega⟩
  have hbody : ∀ v : Bool, ∀ part : List Node → Node, (∀ body, NormalRow body → (part body).IsHeld) →
      (∀ body, part (exchangeRow t.all body) = (part body).exchange t.all) → Follows (Twins t on (x.pushed v))
        (readChoice v false fuel >>= fun body => closeAt place >>= fun _ => pure (part body))
        (readChoice v false fuel' >>= fun body => closeAt place' >>= fun _ => pure (part body))
        fun a b p q => b = a.exchange t.all ∧ a.IsHeld ∧ Twins t on x p q :=
    fun v part hheld hpart => follows_body hchoice (by omega) hx v place place' fun body hnormal => by
      rw [hpart]
      exact .pure fun p q h => ⟨rfl, hheld body hnormal, h⟩
  cases opening with
  | comment =>
    rw [readGroup, readGroup]
    exact .pure fun p q h => ⟨rfl, ⟨trivial, nofun⟩, h⟩
  | switched => exact absurd rfl hopening
  | reference n =>
    rw [readGroup, readGroup]
    exact .pure fun p q h => ⟨(h.1.exchange_eq _).symm, h.1.isHeld, h.2⟩
  | atomic =>
    rw [readGroup, readGroup]
    exact hbody _ .atomic (fun _ h => ⟨h, nofun⟩) fun _ => rfl
  | plain on' off' =>
    rw [readGroup, readGroup]
    exact hbody _ (.group none on' off') (fun _ h => ⟨h, nofun⟩) fun _ => rfl
  | capture name =>
    rw [readGroup, readGroup]
    refine (steady_openGroup name).andThen fun number _ =>
      follows_body hchoice (by omega) hx x.spaced place place' fun body hnormal => ?_
    exact (follows_closeGroup number hnormal).bind fun _ _ => .pure fun p q h => ⟨rfl, ⟨hnormal, nofun⟩, h⟩
  | look behind negated => exact groupFollows_look hchoice (by omega) hx place place' behind negated
  | conditional group => exact groupFollows_conditional hrow (by omega) hx place place' group

/-! ### The whole -/

/-- Everything that is read with some fuel follows, by induction on the fuel. -/
theorem all_follow (fuel : Nat) :
    RowFollows t fuel ∧ AlternativesFollow t fuel ∧ ChoiceFollows t fuel ∧ GroupFollows t fuel := by
  induction fuel with
  | zero =>
    refine ⟨?_, ?_, ?_, ?_⟩
    · intro _ _ _ _ _ _ _ _ _
      exact .throw
    · intro _ _ _ _ _ _ _ _ _ _ _
      exact .throw
    · intro _ _ _ _ _ _ _
      exact .throw
    · intro _ _ _ _ _ _ _ _ _
      exact .throw
  | succ fuel ih =>
    obtain ⟨hrow, hmore, hchoice, hgroup⟩ := ih
    exact ⟨rowFollows_succ hrow hgroup, alternativesFollow_succ hrow hmore, choiceFollows_succ hrow hmore,
      groupFollows_succ hrow hchoice⟩

end Steps

theorem run_finish_eq_ok_iff {body : List Node} {p q : Progress} {r : Regex} : (finish body).run p = .ok (r, q) ↔
    p.flags.withAlphabet? = some r.flags ∧ p.rest = [] ∧ (∀ group ∈ p.asked.map Prod.fst, group < p.nextGroup) ∧
      checkRow r.flags.template body = .ok () ∧ r.body = body ∧ q = p := by
  have hasked : (∀ group ∈ p.asked.map Prod.fst, group < p.nextGroup) ↔
      (p.asked.find? fun a => p.nextGroup ≤ a.1) = none := by
    simp
  rw [hasked, finish]
  simp only [run_bind_eq_ok_iff, run_get_eq_ok_iff]
  constructor
  · rintro ⟨_, _, ⟨rfl, rfl⟩, h⟩
    split at h
    · exact absurd h run_throw_ne_ok
    · next hflags =>
      split at h
      · exact absurd h run_fail_ne_ok
      · next hrest =>
        split at h
        · exact absurd h run_failAt_ne_ok
        · next hnone =>
          split at h
          · exact absurd h run_throw_ne_ok
          · next hcheck =>
            obtain ⟨rfl, rfl⟩ := run_pure_eq_ok_iff.mp h
            exact ⟨hflags, by simpa using hrest, hnone, hcheck, rfl, rfl⟩
  · rintro ⟨hflags, hrest, hnone, hcheck, rfl, rfl⟩
    refine ⟨q, q, ⟨rfl, rfl⟩, ?_⟩
    simp only [hflags, hrest, hnone, hcheck, List.isEmpty_nil, Bool.not_true, Bool.false_eq_true, if_false]
    rfl

theorem read_eq_ok_iff [Text.CharacterNames] {cs : List Char} {given : Flags} {r : Regex} : Regex.read cs given = .ok r ↔
    cs ≠ ['\\'] ∧ ∃ body q q', (readChoice given.verbose true (4 * cs.length + 8)).run
      { rest := cs, position := 0, flags := given } = .ok (body, q) ∧ (finish body).run q = .ok (r, q') := by
  have hmap : ∀ run : Except Fault (Regex × Progress), run.map Prod.fst = .ok r ↔ ∃ q, run = .ok (r, q) := by
    rintro (_ | ⟨s, q⟩) <;> simp [Except.map]
  rw [Regex.read, hmap]
  simp only [run_bind_eq_ok_iff, run_advance_eq_ok_iff]
  constructor
  · rintro ⟨q', _, _, ⟨hlone, rfl⟩, body, q, hread, hfinish⟩
    exact ⟨hlone, body, q, q', hread, hfinish⟩
  · rintro ⟨hlone, body, q, q', hread, hfinish⟩
    exact ⟨q', (), _, ⟨hlone, rfl⟩, body, q, hread, hfinish⟩

/-- An expression with its signs exchanged is read as the exchanged tree. What it turns on for all of it, it turns on beside
other switches too, as long as they leave one alphabet and repetitions are allowed as before. -/
theorem read_exchanged [Text.CharacterNames] (t : Change) {cs ds : List Char} {r : Regex}
    (htext : Exchange t.all { spaced := t.first.verbose } cs ds) (h : Regex.read cs t.first = .ok r) :
    NormalRow r.body ∧ ∃ on, (t.first.union on).withAlphabet? = some r.flags ∧
      ∀ flags, (t.second.union on).withAlphabet? = some flags → flags.template = r.flags.template →
        Regex.read ds t.second = .ok ⟨flags, exchangeRow t.all r.body⟩ := by
  obtain ⟨hlone, body, p, _, hread, hfinish⟩ := read_eq_ok_iff.mp h
  obtain ⟨hflags, hrest, hasked, hcheck, rfl, -⟩ := run_finish_eq_ok_iff.mp hfinish
  have hstart : Twins t {} { spaced := t.first.verbose } { rest := cs, position := 0, flags := t.first }
      { rest := ds, position := 0, flags := t.second } :=
    ⟨cs, rfl, htext, hlone, (Flags.union_empty _).symm, (Flags.union_empty _).symm, rfl, rfl, rfl, rfl⟩
  have hfuel : 4 * ds.length + 8 ≥ 4 * cs.length + 8 := by
    have := htext.length_le
    omega
  obtain ⟨_, q, hread', rfl, hnormal, on, -, hafter⟩ := (all_follow _).2.2.1 _ hfuel true {} { spaced := t.first.verbose } rfl
    (fun _ => (congrArg Flags.verbose (Flags.union_empty t.first)).symm) _ _ hstart _ _ hread
  obtain ⟨rest, htwin⟩ := hafter
  have hend : q.rest = [] := by
    have hnil := htwin.text
    rw [← htwin.rest, hrest] at hnil
    generalize q.rest = es at hnil
    cases hnil
    rfl
  refine ⟨hnormal, on, ?_, fun flags hsecond htemplate => ?_⟩
  · rw [← hflags, htwin.firstFlags]
    rfl
  · refine read_eq_ok_iff.mpr ⟨fun h => hlone (htext.lone_iff.mp h), _, q, q, t.spaced ▸ hread', ?_⟩
    refine run_finish_eq_ok_iff.mpr ⟨?_, hend, ?_, ?_, rfl, rfl⟩
    · rw [← hsecond, htwin.secondFlags]
      rfl
    · rw [htwin.asked, htwin.nextGroup]
      exact hasked
    · rw [htemplate]
      exact checkRow_exchangeRow t.all _ hcheck

end RuleTree.Regex
