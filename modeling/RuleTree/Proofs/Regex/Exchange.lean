import RuleTree.Proofs.Regex.Choice

/-!
# Exchanged end anchors in syntax trees

The tree of an expression with every sign for the end of a line read as the end of the text. Two alternatives that begin with
different signs may begin alike once one is exchanged, so a branch is joined anew from its exchanged alternatives, as a reader
of the exchanged text would join them. The exchange commutes with joining, and keeps the widths of rows and what is demanded
of them.
-/

namespace RuleTree.Regex

/-! ### The exchange -/

def Anchor.exchange (all : Bool) : Anchor → Anchor
  | .lineEnd => if all then .textEnd else .lineEnd
  | a => a

/-- A branch as the row that its alternatives are joined to; any other part alone. -/
def Node.rejoined : Node → List Node
  | .branch alternatives => choice alternatives
  | n => [n]

mutual

/-- A part with the signs for the end of a line exchanged, if all are to be. -/
def Node.exchange (all : Bool) : Node → Node
  | .any => .any
  | .literal negated code => .literal negated code
  | .set negated items => .set negated items
  | .anchor anchor => .anchor (anchor.exchange all)
  | .repeated greed least most body => .repeated greed least most (exchangeRow all body)
  | .group number on off body => .group number on off (exchangeRow all body)
  | .atomic body => .atomic (exchangeRow all body)
  | .branch alternatives => .branch (exchangeRows all alternatives)
  | .backreference group => .backreference group
  | .conditional group present absent => .conditional group (exchangeRow all present) (exchangeRow all absent)
  | .lookahead negated body => .lookahead negated (exchangeRow all body)
  | .lookbehind negated width body => .lookbehind negated width (exchangeRow all body)

def exchangeRow (all : Bool) : List Node → List Node
  | [] => []
  | n :: ns => (n.exchange all).rejoined ++ exchangeRow all ns

def exchangeRows (all : Bool) : List (List Node) → List (List Node)
  | [] => []
  | row :: rows => exchangeRow all row :: exchangeRows all rows

end

section Exchange

variable (all : Bool)

theorem exchangeRows_eq_map (rows : List (List Node)) : exchangeRows all rows = rows.map (exchangeRow all) := by
  induction rows with
  | nil => rfl
  | cons row rows ih => rw [exchangeRows, ih, List.map_cons]

theorem exchangeRow_append (ns ms : List Node) : exchangeRow all (ns ++ ms) = exchangeRow all ns ++ exchangeRow all ms := by
  induction ns with
  | nil => rfl
  | cons n ns ih => rw [List.cons_append, exchangeRow, exchangeRow, ih, List.append_assoc]

theorem Node.IsUnit.exchange {n : Node} (h : n.IsUnit) :
    (n.exchange all).IsUnit ∧ (n.exchange all).rejoined = [n.exchange all] := by
  cases n <;> simp_all [Node.IsUnit, Node.sameUnit, Node.exchange, Node.rejoined]

theorem exchangeRow_units {ns : List Node} (h : ∀ n ∈ ns, n.IsUnit) :
    exchangeRow all ns = ns.map (Node.exchange all) ∧ ∀ n ∈ exchangeRow all ns, n.IsUnit := by
  induction ns with
  | nil => simp [exchangeRow]
  | cons n ns ih =>
    obtain ⟨hmap, hunits⟩ := ih fun m hm => h m (by simp [hm])
    obtain ⟨hunit, halone⟩ := (h n (by simp)).exchange all
    rw [exchangeRow, halone, hmap]
    refine ⟨rfl, ?_⟩
    rw [hmap] at hunits
    rintro m (_ | ⟨_, hm⟩)
    · exact hunit
    · exact hunits m hm

theorem exchangeRow_of_setItems {row : List Node} {items : List SetItem} (h : setItems? row = some items) :
    exchangeRow all row = row := by
  unfold setItems? at h
  split at h
  · rfl
  · rfl
  · cases h

theorem exchangeRow_joined {rows : List (List Node)} (h : Apart rows) :
    exchangeRow all [joined rows] = choice (exchangeRows all rows) := by
  cases hitems : rows.mapM setItems? with
  | none =>
    rw [joined, hitems, exchangeRow, exchangeRow, List.append_nil, Node.exchange, Node.rejoined]
  | some items =>
    have hrows : exchangeRows all rows = rows := by
      rw [exchangeRows_eq_map]
      refine (List.map_congr_left fun row hrow => ?_).trans (List.map_id rows)
      obtain ⟨is, his⟩ := setItems?_of_mapM hitems row hrow
      exact exchangeRow_of_setItems all his
    rw [hrows, choice_of_apart h, joined, hitems]
    rfl

/-- The exchange commutes with joining alternatives. -/
theorem exchangeRow_choice (rows : List (List Node)) : exchangeRow all (choice rows) = choice (exchangeRows all rows) := by
  match rows with
  | [] => rfl
  | [only] => rfl
  | first :: second :: others =>
    obtain ⟨shared, apart, hunits, hapart, hrows, hchoice⟩ := exists_apart first second others
    have hsplit : exchangeRows all (apart.map (shared ++ ·)) = (exchangeRows all apart).map (exchangeRow all shared ++ ·) := by
      simp only [exchangeRows_eq_map, List.map_map]
      exact List.map_congr_left fun row _ => exchangeRow_append all shared row
    rw [hchoice, exchangeRow_append, exchangeRow_joined all hapart, hrows, hsplit]
    match apart with
    | one :: two :: more =>
      exact (choice_map_append (exchangeRow_units all hunits).2 _ _ _).symm

end Exchange

/-! ### Trees as they are read -/

mutual

/-- Whether every branch in a part is of rows that are joined already. -/
def Node.Normal : Node → Prop
  | .repeated _ _ _ body => NormalRow body
  | .group _ _ _ body => NormalRow body
  | .atomic body => NormalRow body
  | .branch alternatives => Apart alternatives ∧ alternatives.mapM setItems? = none ∧ NormalRows alternatives
  | .conditional _ present absent => NormalRow present ∧ NormalRow absent
  | .lookahead _ body => NormalRow body
  | .lookbehind _ _ body => NormalRow body
  | _ => True

def NormalRow : List Node → Prop
  | [] => True
  | n :: ns => n.Normal ∧ NormalRow ns

def NormalRows : List (List Node) → Prop
  | [] => True
  | row :: rows => NormalRow row ∧ NormalRows rows

end

theorem normalRow_iff {ns : List Node} : NormalRow ns ↔ ∀ n ∈ ns, n.Normal := by
  induction ns with
  | nil => simp [NormalRow]
  | cons n ns ih => simp [NormalRow, ih]

theorem normalRows_iff {rows : List (List Node)} : NormalRows rows ↔ ∀ row ∈ rows, NormalRow row := by
  induction rows with
  | nil => simp [NormalRows]
  | cons row rows ih => simp [NormalRows, ih]

theorem normal_joined {rows : List (List Node)} (h : Apart rows) (hrows : NormalRows rows) : (joined rows).Normal := by
  rw [joined]
  split
  · trivial
  · next hitems => exact ⟨h, hitems, hrows⟩

theorem normalRow_choice {rows : List (List Node)} (h : NormalRows rows) : NormalRow (choice rows) := by
  match rows with
  | [] => trivial
  | [only] => exact h.1
  | first :: second :: others =>
    obtain ⟨shared, apart, hunits, hapart, hrows, hchoice⟩ := exists_apart first second others
    rw [hchoice]
    rw [hrows, normalRows_iff] at h
    have hrest : NormalRows apart := normalRows_iff.mpr fun row hrow => by
      have hboth := normalRow_iff.mp (h (shared ++ row) (List.mem_map_of_mem hrow))
      exact normalRow_iff.mpr fun n hn => hboth n (by simp [hn])
    refine normalRow_iff.mpr fun n hn => ?_
    rcases List.mem_append.mp hn with hshared | hlast
    · match apart with
      | row :: _ => exact normalRow_iff.mp (h (shared ++ row) (by simp)) n (by simp [hshared])
    · rw [List.mem_singleton.mp hlast]
      exact normal_joined hapart hrest

mutual

theorem Node.exchange_false : ∀ n : Node, n.Normal → (n.exchange false).rejoined = [n]
  | .any, _ => rfl
  | .literal _ _, _ => rfl
  | .set _ _, _ => rfl
  | .anchor a, _ => by cases a <;> rfl
  | .repeated _ _ _ body, h => by
    rw [Node.exchange, exchangeRow_false body h]
    rfl
  | .group _ _ _ body, h => by
    rw [Node.exchange, exchangeRow_false body h]
    rfl
  | .atomic body, h => by
    rw [Node.exchange, exchangeRow_false body h]
    rfl
  | .branch alternatives, ⟨hapart, hitems, h⟩ => by
    rw [Node.exchange, exchangeRows_false alternatives h, Node.rejoined, choice_of_apart hapart, joined, hitems]
  | .backreference _, _ => rfl
  | .conditional _ present absent, ⟨hp, ha⟩ => by
    rw [Node.exchange, exchangeRow_false present hp, exchangeRow_false absent ha]
    rfl
  | .lookahead _ body, h => by
    rw [Node.exchange, exchangeRow_false body h]
    rfl
  | .lookbehind _ _ body, h => by
    rw [Node.exchange, exchangeRow_false body h]
    rfl

/-- With no sign to exchange, a tree as it is read is its own exchange. -/
theorem exchangeRow_false : ∀ ns : List Node, NormalRow ns → exchangeRow false ns = ns
  | [], _ => rfl
  | n :: ns, ⟨hn, hns⟩ => by rw [exchangeRow, Node.exchange_false n hn, exchangeRow_false ns hns, List.singleton_append]

theorem exchangeRows_false : ∀ rows : List (List Node), NormalRows rows → exchangeRows false rows = rows
  | [], _ => rfl
  | row :: rows, ⟨hrow, hrows⟩ => by rw [exchangeRows, exchangeRow_false row hrow, exchangeRows_false rows hrows]

end

/-! ### What the exchange keeps -/

section Widths

variable (groups : Nat → Width) (all : Bool)

mutual

theorem widthOf_rejoined : ∀ n : Node, n.Normal → widthOf groups (n.exchange all).rejoined = widthOf groups [n]
  | .any, _ => rfl
  | .literal _ _, _ => rfl
  | .set _ _, _ => rfl
  | .anchor _, _ => rfl
  | .repeated _ _ _ body, h => by
    simp only [Node.exchange, Node.rejoined, widthOf, Node.width, widthOf_exchangeRow body h]
  | .group _ _ _ body, h => by
    simp only [Node.exchange, Node.rejoined, widthOf, Node.width, widthOf_exchangeRow body h]
  | .atomic body, h => by
    simp only [Node.exchange, Node.rejoined, widthOf, Node.width, widthOf_exchangeRow body h]
  | .branch (row :: rows), ⟨_, _, h⟩ => by
    have hle := widthOfAny_le groups (row :: rows)
    have hrows := widthOfAny_exchangeRows (row :: rows) h
    rw [exchangeRows] at hrows
    rw [Node.exchange, Node.rejoined, exchangeRows, widthOf_choice, hrows, widthOf_cons, Node.width, widthOf,
      Width.beside, Nat.add_zero, Nat.add_zero, Nat.min_eq_left hle.1, Nat.min_eq_left hle.2]
  | .backreference _, _ => rfl
  | .conditional _ present absent, ⟨hp, ha⟩ => by
    simp only [Node.exchange, Node.rejoined, widthOf, Node.width, widthOf_exchangeRow present hp,
      widthOf_exchangeRow absent ha]
  | .lookahead _ _, _ => rfl
  | .lookbehind _ _ _, _ => rfl

/-- The exchange keeps the width of a row. -/
theorem widthOf_exchangeRow : ∀ ns : List Node, NormalRow ns → widthOf groups (exchangeRow all ns) = widthOf groups ns
  | [], _ => rfl
  | n :: ns, ⟨hn, hns⟩ => by
    rw [exchangeRow, widthOf_append, widthOf_rejoined n hn, widthOf_exchangeRow ns hns, ← widthOf_append,
      List.singleton_append]

theorem widthOfAny_exchangeRows : ∀ rows : List (List Node), NormalRows rows →
    widthOfAny groups (exchangeRows all rows) = widthOfAny groups rows
  | [], _ => rfl
  | row :: rows, ⟨hrow, hrows⟩ => by
    rw [exchangeRows, widthOfAny, widthOfAny, widthOf_exchangeRow row hrow, widthOfAny_exchangeRows rows hrows]

end

end Widths

section Demands

variable {template : Bool} (all : Bool)

mutual

theorem checkRow_rejoined : ∀ n : Node, n.check template = .ok () → checkRow template (n.exchange all).rejoined = .ok ()
  | .any, _ => rfl
  | .literal _ _, _ => rfl
  | .set _ _, _ => rfl
  | .anchor _, _ => rfl
  | .repeated _ _ _ body, h => by
    refine checkRow_iff.mpr (List.forall_mem_singleton.mpr ?_)
    rw [Node.check] at h
    rw [Node.exchange, Node.check]
    split_ifs at h ⊢
    exact checkRow_exchangeRow body h
  | .group _ _ _ body, h => checkRow_iff.mpr (List.forall_mem_singleton.mpr (checkRow_exchangeRow body h))
  | .atomic body, h => checkRow_iff.mpr (List.forall_mem_singleton.mpr (checkRow_exchangeRow body h))
  | .branch alternatives, h => checkRow_choice (checkRows_exchangeRows alternatives h)
  | .backreference _, _ => rfl
  | .conditional _ present absent, h => by
    refine checkRow_iff.mpr (List.forall_mem_singleton.mpr ?_)
    rw [Node.check] at h
    cases hpresent : checkRow template present with
    | error e => simp [hpresent, bind, Except.bind] at h
    | ok _ =>
      rw [hpresent] at h
      rw [Node.exchange, Node.check, checkRow_exchangeRow present hpresent]
      exact checkRow_exchangeRow absent h
  | .lookahead _ body, h => checkRow_iff.mpr (List.forall_mem_singleton.mpr (checkRow_exchangeRow body h))
  | .lookbehind _ _ body, h => by
    refine checkRow_iff.mpr (List.forall_mem_singleton.mpr ?_)
    rw [Node.check] at h
    rw [Node.exchange, Node.check]
    split_ifs at h ⊢
    exact checkRow_exchangeRow body h

/-- What is demanded of a row is demanded of its exchange. -/
theorem checkRow_exchangeRow : ∀ ns : List Node, checkRow template ns = .ok () →
    checkRow template (exchangeRow all ns) = .ok ()
  | [], _ => rfl
  | n :: ns, h => by
    have hn := checkRow_rejoined n (checkRow_iff.mp h n (by simp))
    have hns := checkRow_exchangeRow ns (checkRow_iff.mpr fun m hm => checkRow_iff.mp h m (by simp [hm]))
    rw [exchangeRow]
    refine checkRow_iff.mpr fun m hm => ?_
    rcases List.mem_append.mp hm with hm | hm
    · exact checkRow_iff.mp hn m hm
    · exact checkRow_iff.mp hns m hm

theorem checkRows_exchangeRows : ∀ rows : List (List Node), checkRows template rows = .ok () →
    checkRows template (exchangeRows all rows) = .ok ()
  | [], _ => rfl
  | row :: rows, h => by
    have hrow := checkRow_exchangeRow row (checkRows_iff.mp h row (by simp))
    have hrows := checkRows_exchangeRows rows (checkRows_iff.mpr fun r hr => checkRows_iff.mp h r (by simp [hr]))
    rw [exchangeRows]
    exact checkRows_iff.mpr (List.forall_mem_cons.mpr ⟨hrow, checkRows_iff.mp hrows⟩)

end

end Demands

mutual

theorem lineEnd_rejoined : ∀ n : Node, rowHasAnchor .lineEnd (n.exchange true).rejoined = false
  | .any => rfl
  | .literal _ _ => rfl
  | .set _ _ => rfl
  | .anchor a => by cases a <;> rfl
  | .repeated _ _ _ body => by
    simp only [Node.exchange, Node.rejoined, rowHasAnchor, Node.hasAnchor, lineEnd_exchangeRow body, Bool.or_false]
  | .group _ _ _ body => by
    simp only [Node.exchange, Node.rejoined, rowHasAnchor, Node.hasAnchor, lineEnd_exchangeRow body, Bool.or_false]
  | .atomic body => by
    simp only [Node.exchange, Node.rejoined, rowHasAnchor, Node.hasAnchor, lineEnd_exchangeRow body, Bool.or_false]
  | .branch alternatives => by
    rw [Node.exchange, Node.rejoined, rowHasAnchor_choice, lineEnd_exchangeRows alternatives]
  | .backreference _ => rfl
  | .conditional _ present absent => by
    simp only [Node.exchange, Node.rejoined, rowHasAnchor, Node.hasAnchor, lineEnd_exchangeRow present,
      lineEnd_exchangeRow absent, Bool.or_false]
  | .lookahead _ body => by
    simp only [Node.exchange, Node.rejoined, rowHasAnchor, Node.hasAnchor, lineEnd_exchangeRow body, Bool.or_false]
  | .lookbehind _ _ body => by
    simp only [Node.exchange, Node.rejoined, rowHasAnchor, Node.hasAnchor, lineEnd_exchangeRow body, Bool.or_false]

/-- No sign for the end of a line is left. -/
theorem lineEnd_exchangeRow : ∀ ns : List Node, rowHasAnchor .lineEnd (exchangeRow true ns) = false
  | [] => rfl
  | n :: ns => by rw [exchangeRow, rowHasAnchor_append, lineEnd_rejoined n, lineEnd_exchangeRow ns, Bool.or_false]

theorem lineEnd_exchangeRows : ∀ rows : List (List Node), anyHasAnchor .lineEnd (exchangeRows true rows) = false
  | [] => rfl
  | row :: rows => by rw [exchangeRows, anyHasAnchor, lineEnd_exchangeRow row, lineEnd_exchangeRows rows, Bool.or_false]

end

/-! ### Parts one by one -/

mutual

/-- A part with its signs for the end of a line as the end of the text, and every other part as it is. -/
def Node.strictly : Node → Node
  | .anchor anchor => .anchor (anchor.exchange true)
  | .repeated greed least most body => .repeated greed least most (rowStrictly body)
  | .group number on off body => .group number on off (rowStrictly body)
  | .atomic body => .atomic (rowStrictly body)
  | .branch alternatives => .branch (rowsStrictly alternatives)
  | .conditional group present absent => .conditional group (rowStrictly present) (rowStrictly absent)
  | .lookahead negated body => .lookahead negated (rowStrictly body)
  | .lookbehind negated width body => .lookbehind negated width (rowStrictly body)
  | n => n

def rowStrictly : List Node → List Node
  | [] => []
  | n :: ns => n.strictly :: rowStrictly ns

def rowsStrictly : List (List Node) → List (List Node)
  | [] => []
  | row :: rows => rowStrictly row :: rowsStrictly rows

end

theorem rowsStrictly_eq_map (rows : List (List Node)) : rowsStrictly rows = rows.map rowStrictly := by
  induction rows with
  | nil => rfl
  | cons row rows ih => rw [rowsStrictly, ih, List.map_cons]

theorem setItems?_cons_cons (n m : Node) (ns : List Node) : setItems? (n :: m :: ns) = none := by
  simp [setItems?]

theorem setItems?_rowStrictly (ns : List Node) : setItems? (rowStrictly ns) = setItems? ns := by
  match ns with
  | [] => rfl
  | [n] => cases n <;> rfl
  | n :: m :: ns => rw [rowStrictly, rowStrictly, setItems?_cons_cons, setItems?_cons_cons]

/-- What a part is told from its exchange, unless it is the end of the text. -/
theorem Node.eq_of_strictly_eq {n m : Node} (hunit : n.strictly.IsUnit) (h : n.strictly = m.strictly)
    (hn : n.hasAnchor .textEnd = false) (hm : m.hasAnchor .textEnd = false) : n.IsUnit ∧ n = m := by
  cases n <;> cases m <;> simp_all [Node.strictly, Node.IsUnit, Node.sameUnit, Node.hasAnchor]
  next a b => cases a <;> cases b <;> simp_all [Anchor.exchange]

theorem apart_rowsStrictly {rows : List (List Node)} (h : Apart rows) (hno : anyHasAnchor .textEnd rows = false) :
    Apart (rowsStrictly rows) := by
  rw [apart_iff] at h ⊢
  obtain ⟨hlength, hnone⟩ := h
  rw [anyHasAnchor_eq_any, List.any_eq_false] at hno
  rw [rowsStrictly_eq_map]
  refine ⟨by simpa using hlength, ?_⟩
  rintro ⟨n, hunit, hbegin⟩
  -- Each row begins with a part that the exchange sends to `n`, and there is only one.
  have hfirst : ∀ row ∈ rows, ∃ m ms, row = m :: ms ∧ m.strictly = n ∧ m.hasAnchor .textEnd = false := by
    intro row hrow
    obtain ⟨ns, hns⟩ := hbegin _ (List.mem_map_of_mem hrow)
    have hfree := hno row hrow
    cases row with
    | nil => cases hns
    | cons m ms => exact ⟨m, ms, rfl, (List.cons.inj hns).1, by simp_all [rowHasAnchor]⟩
  obtain ⟨row, hrow⟩ := List.exists_mem_of_length_pos (by omega : 0 < rows.length)
  obtain ⟨m, ms, -, hm, hfree⟩ := hfirst row hrow
  subst hm
  refine hnone ⟨m, (Node.eq_of_strictly_eq hunit rfl hfree hfree).1, fun other hother => ?_⟩
  obtain ⟨k, ks, hk, heq, hfreek⟩ := hfirst other hother
  exact ⟨ks, by rw [hk, (Node.eq_of_strictly_eq hunit heq.symm hfree hfreek).2]⟩

mutual

theorem Node.rejoined_strictly : ∀ n : Node, n.Normal → n.hasAnchor .textEnd = false →
    (n.exchange true).rejoined = [n.strictly]
  | .any, _, _ => rfl
  | .literal _ _, _, _ => rfl
  | .set _ _, _, _ => rfl
  | .anchor _, _, _ => rfl
  | .repeated _ _ _ body, h, hno => by
    rw [Node.exchange, exchangeRow_eq_rowStrictly body h hno]
    rfl
  | .group _ _ _ body, h, hno => by
    rw [Node.exchange, exchangeRow_eq_rowStrictly body h hno]
    rfl
  | .atomic body, h, hno => by
    rw [Node.exchange, exchangeRow_eq_rowStrictly body h hno]
    rfl
  | .branch alternatives, ⟨hapart, hitems, h⟩, hno => by
    have hnone : (rowsStrictly alternatives).mapM setItems? = none := by
      rw [rowsStrictly_eq_map, List.mapM_map]
      exact (congrArg (List.mapM · alternatives) (funext setItems?_rowStrictly)).trans hitems
    rw [Node.exchange, Node.rejoined, exchangeRows_eq_rowsStrictly alternatives h hno,
      choice_of_apart (apart_rowsStrictly hapart hno), joined, hnone]
    rfl
  | .backreference _, _, _ => rfl
  | .conditional _ present absent, ⟨hp, ha⟩, hno => by
    obtain ⟨hpresent, habsent⟩ := Bool.or_eq_false_iff.mp hno
    rw [Node.exchange, exchangeRow_eq_rowStrictly present hp hpresent, exchangeRow_eq_rowStrictly absent ha habsent]
    rfl
  | .lookahead _ body, h, hno => by
    rw [Node.exchange, exchangeRow_eq_rowStrictly body h hno]
    rfl
  | .lookbehind _ _ body, h, hno => by
    rw [Node.exchange, exchangeRow_eq_rowStrictly body h hno]
    rfl

/-- Where no sign for the end of the text stands, the exchange is made part by part. -/
theorem exchangeRow_eq_rowStrictly : ∀ ns : List Node, NormalRow ns → rowHasAnchor .textEnd ns = false →
    exchangeRow true ns = rowStrictly ns
  | [], _, _ => rfl
  | n :: ns, ⟨hn, hns⟩, hno => by
    obtain ⟨hfirst, hrest⟩ := Bool.or_eq_false_iff.mp hno
    rw [exchangeRow, Node.rejoined_strictly n hn hfirst, exchangeRow_eq_rowStrictly ns hns hrest, rowStrictly,
      List.singleton_append]

theorem exchangeRows_eq_rowsStrictly : ∀ rows : List (List Node), NormalRows rows → anyHasAnchor .textEnd rows = false →
    exchangeRows true rows = rowsStrictly rows
  | [], _, _ => rfl
  | row :: rows, ⟨hrow, hrows⟩, hno => by
    obtain ⟨hfirst, hrest⟩ := Bool.or_eq_false_iff.mp hno
    rw [exchangeRows, exchangeRow_eq_rowStrictly row hrow hfirst, exchangeRows_eq_rowsStrictly rows hrows hrest,
      rowsStrictly]

end

end RuleTree.Regex
