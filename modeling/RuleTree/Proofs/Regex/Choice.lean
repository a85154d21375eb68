import Mathlib.Data.List.Basic
import RuleTree.Regex.Literal

/-!
# Joined alternatives

Alternatives that begin alike are read as their shared beginning and a choice between the rest, and a choice between single
characters as a set. Joining is settled by the rows that are left when nothing more is shared, and what holds of all
alternatives holds of the row they are joined to: its width, what is demanded of it, and the anchors in it.
-/

namespace RuleTree.Regex

/-! ### Parts of their own -/

/-- A part without parts of its own. Only such parts are shared between alternatives. -/
def Node.IsUnit (n : Node) : Prop := n.sameUnit n = true

theorem Node.eq_of_sameUnit {n m : Node} (h : n.sameUnit m = true) : n = m := by
  cases n <;> cases m <;> simp_all [Node.sameUnit]

theorem Node.sameUnit_iff {n m : Node} : n.sameUnit m = true ↔ n.IsUnit ∧ n = m := by
  constructor
  · intro h
    obtain rfl := eq_of_sameUnit h
    exact ⟨h, rfl⟩
  · rintro ⟨h, rfl⟩
    exact h

/-- Whether all of some rows begin with a part. -/
def AllBegin (n : Node) (rows : List (List Node)) : Prop := ∀ row ∈ rows, ∃ ns, row = n :: ns

theorem all_head_iff {n : Node} {rows : List (List Node)} (hrows : rows ≠ []) :
    (rows.all fun o => o.head?.any n.sameUnit) = true ↔ n.IsUnit ∧ AllBegin n rows := by
  simp only [List.all_eq_true, Option.any_eq_true, Node.sameUnit_iff]
  constructor
  · intro h
    obtain ⟨row, hrow⟩ := List.exists_mem_of_ne_nil rows hrows
    obtain ⟨_, -, hunit, -⟩ := h row hrow
    refine ⟨hunit, fun row hrow => ?_⟩
    obtain ⟨m, hm, -, rfl⟩ := h row hrow
    exact ⟨row.tail, List.eq_cons_of_mem_head? hm⟩
  · rintro ⟨hunit, h⟩ row hrow
    obtain ⟨ns, rfl⟩ := h row hrow
    exact ⟨n, rfl, hunit, rfl⟩

/-! ### Shared beginnings -/

/-- The beginning that rows share is before what is left of each, and what is left shares nothing. -/
theorem sharedStart_spec (first : List Node) (others : List (List Node)) (hothers : others ≠ []) :
    ∃ shared rest rests, sharedStart first others = (shared, rest, rests) ∧ (∀ n ∈ shared, n.IsUnit) ∧
      first = shared ++ rest ∧ others = rests.map (shared ++ ·) ∧ sharedStart rest rests = ([], rest, rests) := by
  induction first generalizing others with
  | nil => exact ⟨[], [], others, rfl, by simp, rfl, by simp, rfl⟩
  | cons n ns ih =>
    by_cases h : (others.all fun o => o.head?.any n.sameUnit) = true
    · obtain ⟨shared, rest, rests, heq, hunits, hns, htails, hrest⟩ := ih (others.map List.tail) (by simpa using hothers)
      obtain ⟨hunit, hbegin⟩ := (all_head_iff hothers).mp h
      refine ⟨n :: shared, rest, rests, ?_, ?_, ?_, ?_, hrest⟩
      · rw [sharedStart, if_pos h, heq]
      · simpa using ⟨hunit, hunits⟩
      · rw [hns, List.cons_append]
      · have hcons : others = (others.map List.tail).map (n :: ·) := by
          rw [List.map_map]
          refine ((List.map_congr_left fun row hrow => ?_).trans (List.map_id others)).symm
          obtain ⟨ms, rfl⟩ := hbegin row hrow
          rfl
        rw [hcons, htails, List.map_map]
        rfl
    · have hnone : sharedStart (n :: ns) others = ([], n :: ns, others) := by rw [sharedStart, if_neg h]
      exact ⟨[], n :: ns, others, hnone, by simp, rfl, by simp, hnone⟩

theorem sharedStart_append {shared : List Node} (hunits : ∀ n ∈ shared, n.IsUnit) (first : List Node)
    (others : List (List Node)) (hothers : others ≠ []) :
    sharedStart (shared ++ first) (others.map (shared ++ ·)) =
      (shared ++ (sharedStart first others).1, (sharedStart first others).2) := by
  induction shared with
  | nil => simp
  | cons n shared ih =>
    have hall : ((others.map (n :: shared ++ ·)).all fun o => o.head?.any n.sameUnit) = true := by
      refine (all_head_iff (by simpa using hothers)).mpr ⟨hunits n (by simp), ?_⟩
      intro row hrow
      obtain ⟨o, -, rfl⟩ := List.mem_map.mp hrow
      exact ⟨shared ++ o, rfl⟩
    have htails : (others.map (n :: shared ++ ·)).map List.tail = others.map (shared ++ ·) := by
      rw [List.map_map]
      rfl
    rw [List.cons_append, sharedStart, if_pos hall, htails, ih fun m hm => hunits m (by simp [hm])]
    rfl

/-! ### Joined alternatives -/

/-- The part that stands for a choice between rows that share no beginning. -/
def joined (rows : List (List Node)) : Node :=
  match rows.mapM setItems? with
  | some items => .set false items.flatten.eraseDups
  | none => .branch rows

/-- Rows that share no beginning, two or more. -/
def Apart : List (List Node) → Prop
  | first :: second :: others => sharedStart first (second :: others) = ([], first, second :: others)
  | _ => False

theorem apart_iff {rows : List (List Node)} :
    Apart rows ↔ 2 ≤ rows.length ∧ ¬∃ n : Node, n.IsUnit ∧ AllBegin n rows := by
  match rows with
  | [] => simp [Apart]
  | [_] => simp [Apart]
  | [] :: second :: others => simp [Apart, sharedStart, AllBegin]
  | (n :: ns) :: second :: others =>
    have hbegin : (∃ m : Node, m.IsUnit ∧ AllBegin m ((n :: ns) :: second :: others)) ↔
        n.IsUnit ∧ AllBegin n (second :: others) := by
      constructor
      · rintro ⟨m, hunit, h⟩
        obtain ⟨_, hm⟩ := h (n :: ns) (by simp)
        obtain ⟨rfl, -⟩ := List.cons.inj hm
        exact ⟨hunit, fun row hrow => h row (List.mem_cons_of_mem _ hrow)⟩
      · rintro ⟨hunit, h⟩
        exact ⟨n, hunit, List.forall_mem_cons.mpr ⟨⟨ns, rfl⟩, h⟩⟩
    rw [hbegin, ← all_head_iff (by simp), Apart, sharedStart]
    split_ifs with h
    · simp [h]
    · simp [h]

theorem choice_eq_append (first second : List Node) (others : List (List Node)) :
    choice (first :: second :: others) = (sharedStart first (second :: others)).1 ++
      [joined ((sharedStart first (second :: others)).2.1 :: (sharedStart first (second :: others)).2.2)] := by
  rw [choice, joined]
  · obtain ⟨shared, rest, rests⟩ := sharedStart first (second :: others)
    cases h : (rest :: rests).mapM setItems? <;> simp only [h]
  · simp

theorem choice_of_apart {rows : List (List Node)} (h : Apart rows) : choice rows = [joined rows] := by
  match rows with
  | first :: second :: others =>
    rw [choice_eq_append, h]
    rfl

/-- Two or more rows are what they share, each followed by rows that share nothing. -/
theorem exists_apart (first second : List Node) (others : List (List Node)) :
    ∃ shared rows, (∀ n ∈ shared, n.IsUnit) ∧ Apart rows ∧
      first :: second :: others = rows.map (shared ++ ·) ∧ choice (first :: second :: others) = shared ++ [joined rows] := by
  obtain ⟨shared, rest, rests, heq, hunits, hfirst, hothers, hrest⟩ :=
    sharedStart_spec first (second :: others) (by simp)
  refine ⟨shared, rest :: rests, hunits, ?_, ?_, ?_⟩
  · cases rests with
    | nil => simp at hothers
    | cons second others => exact hrest
  · rw [List.map_cons, ← hfirst, ← hothers]
  · rw [choice_eq_append, heq]

theorem choice_map_append {shared : List Node} (hunits : ∀ n ∈ shared, n.IsUnit) (first second : List Node)
    (others : List (List Node)) :
    choice ((first :: second :: others).map (shared ++ ·)) = shared ++ choice (first :: second :: others) := by
  rw [List.map_cons, List.map_cons, choice_eq_append, ← List.map_cons, sharedStart_append hunits _ _ (by simp),
    choice_eq_append, List.append_assoc]

theorem setItems?_of_mapM {rows : List (List Node)} {items : List (List SetItem)} (h : rows.mapM setItems? = some items) :
    ∀ row ∈ rows, ∃ is, setItems? row = some is := by
  induction rows generalizing items with
  | nil => simp
  | cons row rows ih =>
    simp only [List.mapM_cons, Option.bind_eq_bind, Option.bind_eq_some_iff] at h
    obtain ⟨is, his, rest, hrest, -⟩ := h
    rintro r (_ | ⟨_, hr⟩)
    · exact ⟨is, his⟩
    · exact ih hrest r hr

/-! ### Widths -/

/-- The width of one thing behind another. -/
def Width.beside (v w : Width) : Width := ⟨min (v.least + w.least) widthLimit, min (v.most + w.most) widthLimit⟩

/-- The width of one thing or another. -/
def Width.either (v w : Width) : Width := ⟨min v.least w.least, max v.most w.most⟩

section Widths

variable (groups : Nat → Width)

theorem widthOf_le (ns : List Node) : (widthOf groups ns).least ≤ widthLimit ∧ (widthOf groups ns).most ≤ widthLimit := by
  cases ns with
  | nil => exact ⟨Nat.zero_le _, Nat.zero_le _⟩
  | cons n ns => exact ⟨Nat.min_le_right _ _, Nat.min_le_right _ _⟩

theorem widthOfAny_le (rows : List (List Node)) :
    (widthOfAny groups rows).least ≤ widthLimit ∧ (widthOfAny groups rows).most ≤ widthLimit := by
  induction rows with
  | nil => exact ⟨Nat.le_refl _, Nat.zero_le _⟩
  | cons row rows ih =>
    have hrow := widthOf_le groups row
    simp only [widthOfAny]
    omega

theorem widthOf_cons (n : Node) (ns : List Node) : widthOf groups (n :: ns) = (n.width groups).beside (widthOf groups ns) :=
  rfl

theorem widthOfAny_cons (row : List Node) (rows : List (List Node)) :
    widthOfAny groups (row :: rows) = (widthOf groups row).either (widthOfAny groups rows) :=
  rfl

theorem widthOf_append (ns ms : List Node) : widthOf groups (ns ++ ms) = (widthOf groups ns).beside (widthOf groups ms) := by
  induction ns with
  | nil =>
    have h := widthOf_le groups ms
    simp only [List.nil_append, widthOf, Width.beside, Nat.zero_add, Nat.min_eq_left h.1, Nat.min_eq_left h.2]
  | cons n ns ih =>
    rw [List.cons_append, widthOf_cons, widthOf_cons, ih]
    simp only [Width.beside, Width.mk.injEq]
    omega

theorem widthOfAny_map_append (shared : List Node) (row : List Node) (rows : List (List Node)) :
    widthOfAny groups ((row :: rows).map (shared ++ ·)) = (widthOf groups shared).beside (widthOfAny groups (row :: rows)) := by
  induction rows generalizing row with
  | nil =>
    have hrow := widthOf_le groups row
    simp only [List.map_cons, List.map_nil, widthOfAny, widthOf_append, Width.beside, Width.mk.injEq]
    omega
  | cons next rows ih =>
    rw [List.map_cons, widthOfAny_cons, ih next, widthOfAny_cons groups row, widthOf_append]
    simp only [Width.beside, Width.either, Width.mk.injEq]
    omega

theorem widthOf_of_setItems {row : List Node} {items : List SetItem} (h : setItems? row = some items) :
    widthOf groups row = ⟨1, 1⟩ := by
  unfold setItems? at h
  split at h
  · rfl
  · rfl
  · cases h

theorem widthOf_joined (row : List Node) (rows : List (List Node)) :
    widthOf groups [joined (row :: rows)] = widthOfAny groups (row :: rows) := by
  rw [joined]
  split
  · next items hitems =>
    have hone := setItems?_of_mapM hitems
    clear hitems
    induction rows generalizing row with
    | nil =>
      obtain ⟨is, his⟩ := hone row (by simp)
      simp only [widthOfAny, widthOf_of_setItems groups his]
      rfl
    | cons next rows ih =>
      obtain ⟨is, his⟩ := hone row (by simp)
      rw [widthOfAny, ← ih next fun r hr => hone r (List.mem_cons_of_mem _ hr), widthOf_of_setItems groups his]
      rfl
  · have h := widthOfAny_le groups (row :: rows)
    rw [widthOf_cons, Node.width, widthOf, Width.beside, Nat.add_zero, Nat.add_zero, Nat.min_eq_left h.1,
      Nat.min_eq_left h.2]

theorem widthOf_choice (row : List Node) (rows : List (List Node)) :
    widthOf groups (choice (row :: rows)) = widthOfAny groups (row :: rows) := by
  match rows with
  | [] =>
    have h := widthOf_le groups row
    rw [choice_singleton, widthOfAny, widthOfAny, Nat.min_eq_left h.1, Nat.max_eq_left (Nat.zero_le _)]
  | second :: others =>
    obtain ⟨shared, apart, -, hapart, hrows, hchoice⟩ := exists_apart row second others
    rw [hchoice, hrows, widthOf_append]
    match apart with
    | one :: more => rw [widthOf_joined, widthOfAny_map_append]

end Widths

/-! ### Demands -/

section Demands

variable {template : Bool}

theorem checkRow_iff {ns : List Node} : checkRow template ns = .ok () ↔ ∀ n ∈ ns, n.check template = .ok () := by
  induction ns with
  | nil => simp [checkRow]
  | cons n ns ih =>
    rw [checkRow, List.forall_mem_cons, ← ih]
    cases n.check template with
    | error e => simp [bind, Except.bind]
    | ok _ => simp [bind, Except.bind]

theorem checkRows_iff {rows : List (List Node)} :
    checkRows template rows = .ok () ↔ ∀ row ∈ rows, checkRow template row = .ok () := by
  induction rows with
  | nil => simp [checkRows]
  | cons row rows ih =>
    rw [checkRows, List.forall_mem_cons, ← ih]
    cases checkRow template row with
    | error e => simp [bind, Except.bind]
    | ok _ => simp [bind, Except.bind]

theorem check_joined {rows : List (List Node)} (h : checkRows template rows = .ok ()) :
    (joined rows).check template = .ok () := by
  rw [joined]
  split
  · rfl
  · exact h

theorem checkRow_choice {rows : List (List Node)} (h : checkRows template rows = .ok ()) :
    checkRow template (choice rows) = .ok () := by
  match rows with
  | [] => rfl
  | [only] => exact checkRows_iff.mp h only (by simp)
  | first :: second :: others =>
    obtain ⟨shared, apart, -, hapart, hrows, hchoice⟩ := exists_apart first second others
    rw [hrows, checkRows_iff] at h
    have hrest : checkRows template apart = .ok () := checkRows_iff.mpr fun row hrow =>
      checkRow_iff.mpr fun n hn => checkRow_iff.mp (h (shared ++ row) (List.mem_map_of_mem hrow)) n (by simp [hn])
    rw [hchoice]
    refine checkRow_iff.mpr fun n hn => ?_
    rcases List.mem_append.mp hn with hshared | hlast
    · match apart with
      | row :: _ => exact checkRow_iff.mp (h (shared ++ row) (by simp)) n (by simp [hshared])
    · rw [List.mem_singleton.mp hlast]
      exact check_joined hrest

end Demands

/-! ### Anchors -/

mutual

/-- Whether an anchor stands somewhere in a part. -/
def Node.hasAnchor (anchor : Anchor) : Node → Bool
  | .anchor a => a == anchor
  | .repeated _ _ _ body => rowHasAnchor anchor body
  | .group _ _ _ body => rowHasAnchor anchor body
  | .atomic body => rowHasAnchor anchor body
  | .branch alternatives => anyHasAnchor anchor alternatives
  | .conditional _ present absent => rowHasAnchor anchor present || rowHasAnchor anchor absent
  | .lookahead _ body => rowHasAnchor anchor body
  | .lookbehind _ _ body => rowHasAnchor anchor body
  | _ => false

def rowHasAnchor (anchor : Anchor) : List Node → Bool
  | [] => false
  | n :: ns => n.hasAnchor anchor || rowHasAnchor anchor ns

def anyHasAnchor (anchor : Anchor) : List (List Node) → Bool
  | [] => false
  | row :: rows => rowHasAnchor anchor row || anyHasAnchor anchor rows

end

section Anchors

variable (anchor : Anchor)

theorem rowHasAnchor_eq_any (ns : List Node) : rowHasAnchor anchor ns = ns.any (Node.hasAnchor anchor) := by
  induction ns with
  | nil => rfl
  | cons n ns ih => rw [rowHasAnchor, ih, List.any_cons]

theorem anyHasAnchor_eq_any (rows : List (List Node)) : anyHasAnchor anchor rows = rows.any (rowHasAnchor anchor) := by
  induction rows with
  | nil => rfl
  | cons row rows ih => rw [anyHasAnchor, ih, List.any_cons]

theorem rowHasAnchor_append (ns ms : List Node) :
    rowHasAnchor anchor (ns ++ ms) = (rowHasAnchor anchor ns || rowHasAnchor anchor ms) := by
  simp only [rowHasAnchor_eq_any, List.any_append]

theorem rowHasAnchor_of_setItems {row : List Node} {items : List SetItem} (h : setItems? row = some items) :
    rowHasAnchor anchor row = false := by
  unfold setItems? at h
  split at h
  · rfl
  · rfl
  · cases h

theorem hasAnchor_joined (rows : List (List Node)) : (joined rows).hasAnchor anchor = anyHasAnchor anchor rows := by
  rw [joined]
  split
  · next items hitems =>
    rw [anyHasAnchor_eq_any]
    refine (List.any_eq_false.mpr fun row hrow => ?_).symm
    obtain ⟨is, his⟩ := setItems?_of_mapM hitems row hrow
    simp [rowHasAnchor_of_setItems anchor his]
  · rfl

theorem anyHasAnchor_map_append (shared row : List Node) (rows : List (List Node)) :
    anyHasAnchor anchor ((row :: rows).map (shared ++ ·)) =
      (rowHasAnchor anchor shared || anyHasAnchor anchor (row :: rows)) := by
  induction rows generalizing row with
  | nil => simp only [List.map_cons, List.map_nil, anyHasAnchor, rowHasAnchor_append, Bool.or_false]
  | cons next rows ih =>
    have hrows := ih next
    rw [List.map_cons, anyHasAnchor, hrows, rowHasAnchor_append]
    cases rowHasAnchor anchor shared <;> simp [anyHasAnchor]

theorem rowHasAnchor_choice (rows : List (List Node)) : rowHasAnchor anchor (choice rows) = anyHasAnchor anchor rows := by
  match rows with
  | [] => rfl
  | [only] => rw [choice_singleton, anyHasAnchor, anyHasAnchor, Bool.or_false]
  | first :: second :: others =>
    obtain ⟨shared, apart, -, hapart, hrows, hchoice⟩ := exists_apart first second others
    rw [hchoice, hrows, rowHasAnchor_append, rowHasAnchor, rowHasAnchor, Bool.or_false, hasAnchor_joined]
    match apart with
    | one :: more => rw [anyHasAnchor_map_append]

end Anchors

end RuleTree.Regex
