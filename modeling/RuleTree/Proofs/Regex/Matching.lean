import RuleTree.Proofs.Regex.Exchange

/-!
# Matching with exchanged end anchors

Alternatives joined anew behind an exchange match as they do side by side: what they share passes in one way or not at all,
and characters joined to a set are never met, since only an exchanged sign is newly shared and nothing stands behind the end
of the text. So an exchanged tree matches as the tree with its signs exchanged one by one. That tree, in turn, matches as the
tree itself on every text that does not end in a line break, as long as the switch for many lines stays off.
-/

namespace RuleTree.Regex

variable {text : Array Char} {f : Flags} {c d : Cursor} {rest : Rest}

/-! ### Rows and alternatives -/

@[simp]
theorem runRow_singleton (n : Node) : runRow text [n] f c rest = n.run text f c rest := by
  simp only [runRow]

theorem runRow_append (ns ms : List Node) (c : Cursor) :
    runRow text (ns ++ ms) f c rest = runRow text ns f c fun d => runRow text ms f d rest := by
  induction ns generalizing c with
  | nil => simp only [List.nil_append, runRow]
  | cons n ns ih => simp only [List.cons_append, runRow, ih]

theorem step_eq_bind (holds : Char → Bool) : step text holds c rest = (step text holds c some).bind rest := by
  unfold step
  split
  · split <;> rfl
  · rfl

/-- A part without parts of its own matches in one way at most. -/
theorem Node.IsUnit.run_eq_bind {n : Node} (h : n.IsUnit) : n.run text f c rest = (n.run text f c some).bind rest := by
  cases n with
  | any => simpa only [Node.run] using step_eq_bind _
  | literal => simpa only [Node.run] using step_eq_bind _
  | set => simpa only [Node.run] using step_eq_bind _
  | anchor =>
    simp only [Node.run]
    split <;> rfl
  | backreference =>
    simp only [Node.run]
    split
    · split <;> rfl
    · rfl
  | _ => simp [Node.IsUnit, Node.sameUnit] at h

theorem runRow_units {ns : List Node} (h : ∀ n ∈ ns, n.IsUnit) (c : Cursor) :
    runRow text ns f c rest = (runRow text ns f c some).bind rest := by
  induction ns generalizing c with
  | nil => simp only [runRow, Option.bind_some]
  | cons n ns ih =>
    obtain ⟨hn, hns⟩ := List.forall_mem_cons.mp h
    calc runRow text (n :: ns) f c rest
        = (n.run text f c some).bind fun d => runRow text ns f d rest := by rw [runRow, hn.run_eq_bind]
      _ = (n.run text f c some).bind fun d => (runRow text ns f d some).bind rest :=
        congrArg _ (funext (ih hns))
      _ = ((n.run text f c some).bind fun d => runRow text ns f d some).bind rest := (Option.bind_assoc ..).symm
      _ = (runRow text (n :: ns) f c some).bind rest := by rw [runRow, ← hn.run_eq_bind]

/-- Alternatives that begin alike match what they share once, and then what is left of them. -/
theorem runAny_map_append {shared : List Node} (hunits : ∀ n ∈ shared, n.IsUnit) (rows : List (List Node)) :
    runAny text (rows.map (shared ++ ·)) f c rest =
      (runRow text shared f c some).bind fun d => runAny text rows f d rest := by
  induction rows with
  | nil => simp [runAny]
  | cons row rows ih =>
    rw [List.map_cons, runAny, ih, runRow_append, runRow_units hunits]
    cases runRow text shared f c some <;> simp [runAny]

/-! ### Behind the end of the text -/

theorem Node.IsUnit.position_le {n : Node} (h : n.IsUnit) (hrun : n.run text f c some = some d) :
    c.position ≤ d.position := by
  have hstep : ∀ holds, step text holds c some = some d → c.position ≤ d.position := by
    intro holds hd
    unfold step at hd
    split at hd
    · split at hd
      · obtain rfl := Option.some.inj hd
        exact Nat.le_succ _
      · cases hd
    · cases hd
  cases n with
  | any => exact hstep _ (by simpa only [Node.run] using hrun)
  | literal => exact hstep _ (by simpa only [Node.run] using hrun)
  | set => exact hstep _ (by simpa only [Node.run] using hrun)
  | anchor =>
    simp only [Node.run] at hrun
    split at hrun
    · obtain rfl := Option.some.inj hrun
      exact Nat.le_refl _
    · cases hrun
  | backreference =>
    simp only [Node.run] at hrun
    split at hrun
    · split at hrun
      · obtain rfl := Option.some.inj hrun
        exact Nat.le_add_right _ _
      · cases hrun
    · cases hrun
  | _ => simp [Node.IsUnit, Node.sameUnit] at h

theorem position_le_of_units {ns : List Node} (h : ∀ n ∈ ns, n.IsUnit) (hrun : runRow text ns f c some = some d) :
    c.position ≤ d.position := by
  induction ns generalizing c with
  | nil =>
    obtain rfl := Option.some.inj (by simpa only [runRow] using hrun)
    exact Nat.le_refl _
  | cons n ns ih =>
    obtain ⟨hn, hns⟩ := List.forall_mem_cons.mp h
    rw [runRow, hn.run_eq_bind] at hrun
    obtain ⟨e, he, hrest⟩ := Option.bind_eq_some_iff.mp hrun
    exact Nat.le_trans (hn.position_le he) (ih hns hrest)

theorem step_past (h : text.size ≤ c.position) (holds : Char → Bool) : step text holds c rest = none := by
  rw [step, Array.getElem?_eq_none h]

theorem runRow_of_setItems_past {row : List Node} {items : List SetItem} (hitems : setItems? row = some items)
    (h : text.size ≤ c.position) : runRow text row f c rest = none := by
  unfold setItems? at hitems
  split at hitems
  · simp only [runRow_singleton, Node.run, step_past h]
  · simp only [runRow_singleton, Node.run, step_past h]
  · cases hitems

/-- Joined rows match as the rows do, unless there are characters left that a set of them would take otherwise. -/
theorem run_joined {rows : List (List Node)} (h : rows.mapM setItems? = none ∨ text.size ≤ c.position) :
    (joined rows).run text f c rest = runAny text rows f c rest := by
  rw [joined]
  split
  · next items hitems =>
    have hpast : text.size ≤ c.position := h.resolve_left fun hnone => by simp [hnone] at hitems
    have hone := setItems?_of_mapM hitems
    rw [Node.run, step_past hpast]
    clear hitems h
    induction rows with
    | nil => rfl
    | cons row rows ih =>
      obtain ⟨is, his⟩ := hone row (by simp)
      rw [runAny, runRow_of_setItems_past his hpast, ← ih fun r hr => hone r (List.mem_cons_of_mem _ hr)]
      rfl
  · rw [Node.run]

/-! ### What an exchanged row begins with -/

theorem rejoined_ne_nil {n : Node} (h : n.Normal) : (n.exchange true).rejoined ≠ [] := by
  cases n with
  | branch alternatives =>
    match alternatives, h.1 with
    | first :: second :: others, _ =>
      rw [Node.exchange, Node.rejoined, exchangeRows, exchangeRows, choice_eq_append]
      exact List.append_ne_nil_of_right_ne_nil _ (List.cons_ne_nil _ _)
  | _ => simp [Node.exchange, Node.rejoined]

theorem exchangeRow_eq_nil {ns : List Node} (h : NormalRow ns) (hnil : exchangeRow true ns = []) : ns = [] := by
  cases ns with
  | nil => rfl
  | cons n ns => exact absurd (List.append_eq_nil_iff.mp hnil).1 (rejoined_ne_nil h.1)

/-- That the exchange of a row begins with a part other than the end of the text only if the row begins with it. -/
def KeepsStart (row : List Node) : Prop :=
  ∀ u ms, exchangeRow true row = u :: ms → u.IsUnit → u ≠ .anchor .textEnd →
    ∃ ns, row = u :: ns ∧ ms = exchangeRow true ns

theorem eq_textEnd_of_allBegin {rows : List (List Node)} (hapart : Apart rows) (hkeeps : ∀ row ∈ rows, KeepsStart row)
    {u : Node} (hunit : u.IsUnit) (hbegin : AllBegin u (exchangeRows true rows)) : u = .anchor .textEnd := by
  by_contra hu
  refine (apart_iff.mp hapart).2 ⟨u, hunit, fun row hrow => ?_⟩
  rw [exchangeRows_eq_map] at hbegin
  obtain ⟨ms, hms⟩ := hbegin _ (List.mem_map_of_mem hrow)
  obtain ⟨ns, hns, -⟩ := hkeeps row hrow u ms hms hunit hu
  exact ⟨ns, hns⟩

theorem mapM_setItems_exchangeRows {rows : List (List Node)} (hnormal : NormalRows rows)
    (hkeeps : ∀ row ∈ rows, KeepsStart row) (hnone : rows.mapM setItems? = none) :
    (exchangeRows true rows).mapM setItems? = none := by
  have hrow : ∀ row ∈ rows, ∀ items, setItems? (exchangeRow true row) = some items → setItems? row = some items := by
    intro row hrow items hitems
    obtain ⟨u, hu⟩ : ∃ u, exchangeRow true row = [u] := by
      generalize exchangeRow true row = ns at hitems
      unfold setItems? at hitems
      split at hitems
      · exact ⟨_, rfl⟩
      · exact ⟨_, rfl⟩
      · cases hitems
    have hunit : u.IsUnit ∧ u ≠ .anchor .textEnd := by
      rw [hu] at hitems
      cases u <;> simp_all [setItems?, Node.IsUnit, Node.sameUnit]
    obtain ⟨ns, rfl, hns⟩ := hkeeps row hrow u [] hu hunit.1 hunit.2
    rw [exchangeRow_eq_nil (normalRows_iff.mp hnormal _ hrow).2 hns.symm]
    rwa [hu] at hitems
  by_contra hsome
  obtain ⟨items, hitems⟩ := Option.ne_none_iff_exists'.mp hsome
  have hall : ∀ row ∈ rows, (setItems? row).isSome := by
    intro row hmem
    rw [exchangeRows_eq_map] at hitems
    obtain ⟨is, his⟩ := setItems?_of_mapM hitems _ (List.mem_map_of_mem hmem)
    rw [hrow row hmem is his]
    rfl
  clear hitems hsome hrow hkeeps hnormal
  induction rows with
  | nil => cases hnone
  | cons row rows ih =>
    obtain ⟨hfirst, hrest⟩ := List.forall_mem_cons.mp hall
    obtain ⟨is, his⟩ := Option.isSome_iff_exists.mp hfirst
    simp only [List.mapM_cons, his, Option.bind_eq_bind, Option.bind_some] at hnone
    cases hmore : rows.mapM setItems? with
    | none => exact ih hmore hrest
    | some iss => simp [hmore] at hnone

mutual

theorem Node.keepsStart : ∀ n : Node, n.Normal → ∀ u ms, (n.exchange true).rejoined = u :: ms → u.IsUnit →
    u ≠ .anchor .textEnd → n = u ∧ ms = []
  | .any, _, u, ms, h, _, _ => List.cons.inj h |>.imp id Eq.symm
  | .literal _ _, _, u, ms, h, _, _ => List.cons.inj h |>.imp id Eq.symm
  | .set _ _, _, u, ms, h, _, _ => List.cons.inj h |>.imp id Eq.symm
  | .backreference _, _, u, ms, h, _, _ => List.cons.inj h |>.imp id Eq.symm
  | .anchor a, _, u, ms, h, _, hu => by
    obtain ⟨rfl, hms⟩ := List.cons.inj h
    cases a <;> first | exact ⟨rfl, hms.symm⟩ | exact absurd rfl hu
  | .repeated _ _ _ _, _, u, ms, h, hunit, _ => by
    obtain ⟨rfl, -⟩ := List.cons.inj h
    exact absurd hunit Bool.false_ne_true
  | .group _ _ _ _, _, u, ms, h, hunit, _ => by
    obtain ⟨rfl, -⟩ := List.cons.inj h
    exact absurd hunit Bool.false_ne_true
  | .atomic _, _, u, ms, h, hunit, _ => by
    obtain ⟨rfl, -⟩ := List.cons.inj h
    exact absurd hunit Bool.false_ne_true
  | .conditional _ _ _, _, u, ms, h, hunit, _ => by
    obtain ⟨rfl, -⟩ := List.cons.inj h
    exact absurd hunit Bool.false_ne_true
  | .lookahead _ _, _, u, ms, h, hunit, _ => by
    obtain ⟨rfl, -⟩ := List.cons.inj h
    exact absurd hunit Bool.false_ne_true
  | .lookbehind _ _ _, _, u, ms, h, hunit, _ => by
    obtain ⟨rfl, -⟩ := List.cons.inj h
    exact absurd hunit Bool.false_ne_true
  | .branch alternatives, ⟨hapart, hnone, hnormal⟩, u, ms, h, hunit, hu => by
    have hkeeps := keepsStarts alternatives hnormal
    rw [Node.exchange, Node.rejoined] at h
    match alternatives with
    | first :: second :: others =>
      obtain ⟨shared, apart, hunits, hrest, hrows, hchoice⟩ :=
        exists_apart (exchangeRow true first) (exchangeRow true second) (exchangeRows true others)
      rw [exchangeRows, exchangeRows, hchoice] at h
      cases shared with
      | nil =>
        -- Nothing is shared: the first part is the joined rows, and they are no characters.
        obtain ⟨rfl, -⟩ := List.cons.inj h
        have hall := mapM_setItems_exchangeRows hnormal hkeeps hnone
        rw [exchangeRows, exchangeRows, hrows] at hall
        simp only [List.nil_append, List.map_id'] at hall
        rw [joined, hall] at hunit
        exact absurd hunit Bool.false_ne_true
      | cons v shared =>
        obtain ⟨rfl, -⟩ := List.cons.inj h
        refine absurd (eq_textEnd_of_allBegin hapart hkeeps hunit ?_) hu
        rw [exchangeRows, exchangeRows, hrows]
        intro row hrow
        obtain ⟨ns, -, rfl⟩ := List.mem_map.mp hrow
        exact ⟨shared ++ ns, rfl⟩

theorem keepsStart : ∀ ns : List Node, NormalRow ns → KeepsStart ns
  | [], _ => nofun
  | n :: ns, ⟨hn, _⟩ => by
    intro u ms h hunit hu
    rw [exchangeRow] at h
    cases hfirst : (n.exchange true).rejoined with
    | nil => exact absurd hfirst (rejoined_ne_nil hn)
    | cons v vs =>
      rw [hfirst] at h
      obtain ⟨rfl, rfl⟩ := List.cons.inj h
      obtain ⟨rfl, rfl⟩ := Node.keepsStart n hn v vs hfirst hunit hu
      exact ⟨ns, rfl, rfl⟩

theorem keepsStarts : ∀ rows : List (List Node), NormalRows rows → ∀ row ∈ rows, KeepsStart row
  | [], _ => nofun
  | row :: rows, ⟨hrow, hrows⟩ => List.forall_mem_cons.mpr ⟨keepsStart row hrow, keepsStarts rows hrows⟩

end

/-! ### Exchanged trees -/

/-- Alternatives joined anew after an exchange match as the exchanged alternatives do. -/
theorem runRow_choice_exchangeRows {rows : List (List Node)} (hapart : Apart rows) (hnone : rows.mapM setItems? = none)
    (hnormal : NormalRows rows) :
    runRow text (choice (exchangeRows true rows)) f c rest = runAny text (exchangeRows true rows) f c rest := by
  have hkeeps := keepsStarts rows hnormal
  have hall := mapM_setItems_exchangeRows hnormal hkeeps hnone
  match rows with
  | first :: second :: others =>
    rw [exchangeRows, exchangeRows] at hall ⊢
    obtain ⟨shared, apart, hunits, hrest, hrows, hchoice⟩ :=
      exists_apart (exchangeRow true first) (exchangeRow true second) (exchangeRows true others)
    rw [hchoice, runRow_append, runRow_units hunits, hrows, runAny_map_append hunits]
    refine Option.bind_congr fun d hd => ?_
    rw [runRow_singleton]
    refine run_joined ?_
    cases shared with
    | nil => exact .inl (by simpa only [hrows, List.nil_append, List.map_id'] using hall)
    | cons u shared =>
      obtain ⟨hunit, hunits⟩ := List.forall_mem_cons.mp hunits
      -- Only the end of the text can be newly shared, and no character stands behind it.
      have hu : u = .anchor .textEnd := by
        refine eq_textEnd_of_allBegin hapart hkeeps hunit ?_
        rw [exchangeRows, exchangeRows, hrows]
        intro row hrow
        obtain ⟨ns, -, rfl⟩ := List.mem_map.mp hrow
        exact ⟨shared ++ ns, rfl⟩
      rw [hu, runRow, Node.run] at hd
      split at hd
      · next hend =>
        have hplace : c.position = text.size := by simpa [Anchor.holds] using hend
        exact .inr (hplace ▸ position_le_of_units hunits hd)
      · cases hd

mutual

theorem Node.run_rejoined : ∀ (n : Node), n.Normal → ∀ (f : Flags) (c : Cursor) (rest : Rest),
    runRow text (n.exchange true).rejoined f c rest = n.strictly.run text f c rest
  | .any, _, _, _, _ => runRow_singleton _
  | .literal _ _, _, _, _, _ => runRow_singleton _
  | .set _ _, _, _, _, _ => runRow_singleton _
  | .anchor _, _, _, _, _ => runRow_singleton _
  | .backreference _, _, _, _, _ => runRow_singleton _
  | .repeated _ _ _ body, h, f, c, rest => by
    simp only [Node.exchange, Node.rejoined, runRow_singleton, Node.strictly, Node.run, runRow_exchangeRow body h]
  | .group none _ _ body, h, f, c, rest => by
    simp only [Node.exchange, Node.rejoined, runRow_singleton, Node.strictly, Node.run, runRow_exchangeRow body h]
  | .group (some _) _ _ body, h, f, c, rest => by
    simp only [Node.exchange, Node.rejoined, runRow_singleton, Node.strictly, Node.run, runRow_exchangeRow body h]
  | .atomic body, h, f, c, rest => by
    simp only [Node.exchange, Node.rejoined, runRow_singleton, Node.strictly, Node.run, runRow_exchangeRow body h]
  | .branch alternatives, ⟨hapart, hnone, hnormal⟩, f, c, rest => by
    rw [Node.exchange, Node.rejoined, runRow_choice_exchangeRows hapart hnone hnormal, Node.strictly, Node.run,
      runAny_exchangeRows alternatives hnormal]
  | .conditional _ present absent, h, f, c, rest => by
    simp only [Node.exchange, Node.rejoined, runRow_singleton, Node.strictly, Node.run, runRow_exchangeRow present h.1,
      runRow_exchangeRow absent h.2]
  | .lookahead _ body, h, f, c, rest => by
    simp only [Node.exchange, Node.rejoined, runRow_singleton, Node.strictly, Node.run, runRow_exchangeRow body h]
  | .lookbehind _ _ body, h, f, c, rest => by
    simp only [Node.exchange, Node.rejoined, runRow_singleton, Node.strictly, Node.run, runRow_exchangeRow body h]

/-- An exchanged row matches as the row with its signs exchanged one by one. -/
theorem runRow_exchangeRow : ∀ (ns : List Node), NormalRow ns → ∀ (f : Flags) (c : Cursor) (rest : Rest),
    runRow text (exchangeRow true ns) f c rest = runRow text (rowStrictly ns) f c rest
  | [], _, _, _, _ => rfl
  | n :: ns, ⟨hn, hns⟩, f, c, rest => by
    rw [exchangeRow, runRow_append, Node.run_rejoined n hn, rowStrictly, runRow]
    exact congrArg _ (funext fun d => runRow_exchangeRow ns hns f d rest)

theorem runAny_exchangeRows : ∀ (rows : List (List Node)), NormalRows rows → ∀ (f : Flags) (c : Cursor) (rest : Rest),
    runAny text (exchangeRows true rows) f c rest = runAny text (rowsStrictly rows) f c rest
  | [], _, _, _, _ => rfl
  | row :: rows, ⟨hrow, hrows⟩, f, c, rest => by
    rw [exchangeRows, runAny, runRow_exchangeRow row hrow, runAny_exchangeRows rows hrows, rowsStrictly, runAny]

end

/-- Joining alternatives anew changes nothing of what is found. -/
theorem search_exchangeRow {flags : Flags} {body : List Node} (h : NormalRow body) (s : String) :
    Regex.search ⟨flags, exchangeRow true body⟩ s = Regex.search ⟨flags, rowStrictly body⟩ s := by
  simp only [Regex.search, runRow_exchangeRow body h]

/-! ### Trees without the sign, and texts without a last line break -/

mutual

theorem Node.strictly_eq_self : ∀ n : Node, n.hasAnchor .lineEnd = false → n.strictly = n
  | .any, _ => rfl
  | .literal _ _, _ => rfl
  | .set _ _, _ => rfl
  | .anchor a, h => by
    cases a <;> first | rfl | cases h
  | .repeated _ _ _ body, h => by rw [Node.strictly, rowStrictly_eq_self body h]
  | .group _ _ _ body, h => by rw [Node.strictly, rowStrictly_eq_self body h]
  | .atomic body, h => by rw [Node.strictly, rowStrictly_eq_self body h]
  | .branch alternatives, h => by rw [Node.strictly, rowsStrictly_eq_self alternatives h]
  | .backreference _, _ => rfl
  | .conditional _ present absent, h => by
    obtain ⟨hpresent, habsent⟩ := Bool.or_eq_false_iff.mp h
    rw [Node.strictly, rowStrictly_eq_self present hpresent, rowStrictly_eq_self absent habsent]
  | .lookahead _ body, h => by rw [Node.strictly, rowStrictly_eq_self body h]
  | .lookbehind _ _ body, h => by rw [Node.strictly, rowStrictly_eq_self body h]

/-- A row without the sign for the end of a line is left as it is. -/
theorem rowStrictly_eq_self : ∀ ns : List Node, rowHasAnchor .lineEnd ns = false → rowStrictly ns = ns
  | [], _ => rfl
  | n :: ns, h => by
    obtain ⟨hn, hns⟩ := Bool.or_eq_false_iff.mp h
    rw [rowStrictly, Node.strictly_eq_self n hn, rowStrictly_eq_self ns hns]

theorem rowsStrictly_eq_self : ∀ rows : List (List Node), anyHasAnchor .lineEnd rows = false → rowsStrictly rows = rows
  | [], _ => rfl
  | row :: rows, h => by
    obtain ⟨hrow, hrows⟩ := Bool.or_eq_false_iff.mp h
    rw [rowsStrictly, rowStrictly_eq_self row hrow, rowsStrictly_eq_self rows hrows]

end

mutual

/-- Whether a group in a part turns the switch for many lines on. -/
def Node.turnsOnLines : Node → Bool
  | .repeated _ _ _ body => rowTurnsOnLines body
  | .group _ on _ body => on.multiline || rowTurnsOnLines body
  | .atomic body => rowTurnsOnLines body
  | .branch alternatives => anyTurnsOnLines alternatives
  | .conditional _ present absent => rowTurnsOnLines present || rowTurnsOnLines absent
  | .lookahead _ body => rowTurnsOnLines body
  | .lookbehind _ _ body => rowTurnsOnLines body
  | _ => false

def rowTurnsOnLines : List Node → Bool
  | [] => false
  | n :: ns => n.turnsOnLines || rowTurnsOnLines ns

def anyTurnsOnLines : List (List Node) → Bool
  | [] => false
  | row :: rows => rowTurnsOnLines row || anyTurnsOnLines rows

end

theorem Flags.inside_multiline {outer on : Flags} (houter : outer.multiline = false) (hon : on.multiline = false)
    (off : Flags) : (outer.inside on off).multiline = false := by
  rw [Flags.inside]
  split <;> simp [Flags.union, Flags.without, houter, hon]

/-- Where the text does not end in a line break, a single line ends where the text ends. -/
theorem Anchor.holds_exchange (hlines : f.multiline = false) (hlast : text.back? ≠ some '\n') (i : Nat) (a : Anchor) :
    (a.exchange true).holds f text i = a.holds f text i := by
  cases a with
  | lineEnd =>
    have hnone : (text[i]? == some '\n' && i + 1 == text.size) = false := by
      refine Bool.eq_false_iff.mpr fun h => hlast ?_
      obtain ⟨hbreak, hplace⟩ := (Bool.and_eq_true _ _).mp h
      rw [Array.back?, ← beq_iff_eq.mp hplace, Nat.add_sub_cancel]
      exact beq_iff_eq.mp hbreak
    rw [Anchor.exchange, if_pos rfl, Anchor.holds, Anchor.holds, hlines, Bool.false_or, hnone, Bool.or_false]
  | _ => rfl

mutual

theorem Node.run_strictly (hlast : text.back? ≠ some '\n') : ∀ n : Node, n.turnsOnLines = false →
    ∀ f : Flags, f.multiline = false → ∀ (c : Cursor) (rest : Rest), n.strictly.run text f c rest = n.run text f c rest
  | .any, _, _, _, _, _ => rfl
  | .literal _ _, _, _, _, _, _ => rfl
  | .set _ _, _, _, _, _, _ => rfl
  | .anchor a, _, f, hf, c, rest => by
    simp only [Node.strictly, Node.run, Anchor.holds_exchange hf hlast]
  | .repeated _ _ _ body, h, f, hf, c, rest => by
    simp only [Node.strictly, Node.run, runRow_rowStrictly hlast body h f hf]
  | .group none _ off body, h, f, hf, c, rest => by
    obtain ⟨hon, hbody⟩ := Bool.or_eq_false_iff.mp h
    simp only [Node.strictly, Node.run, runRow_rowStrictly hlast body hbody _ (Flags.inside_multiline hf hon off)]
  | .group (some _) _ off body, h, f, hf, c, rest => by
    obtain ⟨hon, hbody⟩ := Bool.or_eq_false_iff.mp h
    simp only [Node.strictly, Node.run, runRow_rowStrictly hlast body hbody _ (Flags.inside_multiline hf hon off)]
  | .atomic body, h, f, hf, c, rest => by
    simp only [Node.strictly, Node.run, runRow_rowStrictly hlast body h f hf]
  | .branch alternatives, h, f, hf, c, rest => by
    simp only [Node.strictly, Node.run, runAny_rowsStrictly hlast alternatives h f hf]
  | .backreference _, _, _, _, _, _ => rfl
  | .conditional _ present absent, h, f, hf, c, rest => by
    obtain ⟨hpresent, habsent⟩ := Bool.or_eq_false_iff.mp h
    simp only [Node.strictly, Node.run, runRow_rowStrictly hlast present hpresent f hf,
      runRow_rowStrictly hlast absent habsent f hf]
  | .lookahead _ body, h, f, hf, c, rest => by
    simp only [Node.strictly, Node.run, runRow_rowStrictly hlast body h f hf]
  | .lookbehind _ _ body, h, f, hf, c, rest => by
    simp only [Node.strictly, Node.run, runRow_rowStrictly hlast body h f hf]

theorem runRow_rowStrictly (hlast : text.back? ≠ some '\n') : ∀ ns : List Node, rowTurnsOnLines ns = false →
    ∀ f : Flags, f.multiline = false → ∀ (c : Cursor) (rest : Rest),
      runRow text (rowStrictly ns) f c rest = runRow text ns f c rest
  | [], _, _, _, _, _ => rfl
  | n :: ns, h, f, hf, c, rest => by
    obtain ⟨hn, hns⟩ := Bool.or_eq_false_iff.mp h
    rw [rowStrictly, runRow, runRow, Node.run_strictly hlast n hn f hf]
    exact congrArg _ (funext fun d => runRow_rowStrictly hlast ns hns f hf d rest)

theorem runAny_rowsStrictly (hlast : text.back? ≠ some '\n') : ∀ rows : List (List Node), anyTurnsOnLines rows = false →
    ∀ f : Flags, f.multiline = false → ∀ (c : Cursor) (rest : Rest),
      runAny text (rowsStrictly rows) f c rest = runAny text rows f c rest
  | [], _, _, _, _, _ => rfl
  | row :: rows, h, f, hf, c, rest => by
    obtain ⟨hrow, hrows⟩ := Bool.or_eq_false_iff.mp h
    rw [rowsStrictly, runAny, runAny, runRow_rowStrictly hlast row hrow f hf, runAny_rowsStrictly hlast rows hrows f hf]

end

/-- On a text that does not end in a line break the exchange changes nothing of what is found, if the switch for many lines is
off and no group turns it on. -/
theorem search_rowStrictly {flags : Flags} {body : List Node} (hlines : flags.multiline = false)
    (hbody : rowTurnsOnLines body = false) {s : String} (hlast : s.toList.getLast? ≠ some '\n') :
    Regex.search ⟨flags, rowStrictly body⟩ s = Regex.search ⟨flags, body⟩ s := by
  have hback : s.toList.toArray.back? ≠ some '\n' := by
    rwa [List.back?_toArray]
  simp only [Regex.search, runRow_rowStrictly hback body hbody flags hlines]

end RuleTree.Regex
