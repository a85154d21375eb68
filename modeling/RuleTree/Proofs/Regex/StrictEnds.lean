import RuleTree.Regex.Literal

/-!
# The scanner of end anchors

The scanner goes through an expression with two bits of state and writes a pair of characters for each sign that it takes for
the end of a line. Read again, such a pair leaves the scanner where the sign left it. So a second scan stands at every character
where the first stood, finds no sign any more, and the pairs tell where the signs were.
-/

namespace RuleTree.PatternLiteral

/-- What the scanner knows before a character: whether it is in a set, and whether the character is escaped. -/
structure ScanState where
  inSet : Bool
  escaped : Bool
deriving DecidableEq

namespace ScanState

def initial : ScanState := ⟨false, false⟩

/-- Whether the scanner takes a character for the end of a line. -/
def isEnd (s : ScanState) (c : Char) : Bool := !s.escaped && !s.inSet && c == '$'

/-- The state behind a character. -/
def next (s : ScanState) (c : Char) : ScanState :=
  if s.escaped then { s with escaped := false }
  else if c = '\\' then { s with escaped := true }
  else if s.inSet then { s with inSet := c != ']' }
  else if c = '[' then { s with inSet := true }
  else s

/-- What the scanner writes for a character. -/
def written (s : ScanState) (c : Char) : List Char := if s.isEnd c then ['\\', 'Z'] else [c]

/-- The text that the scanner writes from a state on. -/
def rewrite (s : ScanState) (cs : List Char) : List Char := strictEnds s.inSet s.escaped cs

/-- The characters of a text, each with the state that the scanner meets it in. -/
def trace (s : ScanState) : List Char → List (ScanState × Char)
  | [] => []
  | c :: cs => (s, c) :: (s.next c).trace cs

/-- The state behind a text. -/
def behind (s : ScanState) (cs : List Char) : ScanState := cs.foldl next s

/-- The places of the pairs in the rewritten text, which begins at a given place. -/
def pairs (s : ScanState) (i : Nat) : List Char → List Nat
  | [] => []
  | c :: cs => if s.isEnd c then i :: (s.next c).pairs (i + 2) cs else (s.next c).pairs (i + 1) cs

end ScanState

/-- Puts the sign for the end of a line in the stead of the pairs of characters at some places of a text. -/
def restore (places : List Nat) (i : Nat) : List Char → List Char
  | [] => []
  | [c] => [c]
  | c :: d :: cs => if i ∈ places then '$' :: restore places (i + 2) cs else c :: restore places (i + 1) (d :: cs)

namespace ScanState

variable {s : ScanState} {c : Char} {cs ds : List Char} {i : Nat} {places : List Nat}

/-! ### One character -/

theorem isEnd_iff : s.isEnd c = true ↔ s = initial ∧ c = '$' := by
  obtain ⟨inSet, escaped⟩ := s
  cases inSet <;> cases escaped <;> simp [isEnd, initial]

theorem rewrite_nil (s : ScanState) : s.rewrite [] = [] := by
  rw [rewrite, strictEnds]

/-- The scanner writes what stands for a character and goes on in the next state. -/
theorem rewrite_cons (s : ScanState) (c : Char) (cs : List Char) :
    s.rewrite (c :: cs) = s.written c ++ (s.next c).rewrite cs := by
  obtain ⟨inSet, escaped⟩ := s
  cases escaped with
  | true => rfl
  | false =>
    by_cases hslash : c = '\\'
    · simp [rewrite, strictEnds, written, next, isEnd, hslash]
    · cases inSet with
      | true => simp [rewrite, strictEnds, written, next, isEnd, hslash]
      | false =>
        by_cases hopen : c = '['
        · simp [rewrite, strictEnds, written, next, isEnd, hopen]
        · by_cases hend : c = '$'
          · simp [rewrite, strictEnds, written, next, isEnd, hend]
          · simp [rewrite, strictEnds, written, next, isEnd, hslash, hopen, hend]

/-- Reading what is written for a character leads to the state behind the character. -/
theorem behind_written (s : ScanState) (c : Char) : s.behind (s.written c) = s.next c := by
  cases h : s.isEnd c with
  | true =>
    obtain ⟨rfl, rfl⟩ := isEnd_iff.mp h
    rfl
  | false =>
    rw [written, h]
    rfl

/-- In what is written for a character the scanner finds no end of a line. -/
theorem isEnd_of_mem_written : ∀ p ∈ s.trace (s.written c), p.1.isEnd p.2 = false := by
  cases h : s.isEnd c with
  | true =>
    obtain ⟨rfl, rfl⟩ := isEnd_iff.mp h
    decide
  | false =>
    intro p hp
    rw [written, h] at hp
    obtain rfl := List.mem_singleton.mp hp
    exact h

/-! ### Texts -/

theorem trace_append (s : ScanState) (cs ds : List Char) : s.trace (cs ++ ds) = s.trace cs ++ (s.behind cs).trace ds := by
  induction cs generalizing s with
  | nil => rfl
  | cons c cs ih =>
    rw [List.cons_append, trace, trace, ih]
    rfl

theorem behind_append (s : ScanState) (cs ds : List Char) : s.behind (cs ++ ds) = (s.behind cs).behind ds :=
  List.foldl_append

/-- The second scan passes through the states of the first: what was written for a character is read from the state that the
character was met in. -/
theorem trace_rewrite (s : ScanState) (cs : List Char) :
    s.trace (s.rewrite cs) = (s.trace cs).flatMap fun p => p.1.trace (p.1.written p.2) := by
  induction cs generalizing s with
  | nil =>
    rw [rewrite_nil]
    rfl
  | cons c cs ih =>
    rw [rewrite_cons, trace_append, behind_written, ih]
    rfl

theorem behind_rewrite (s : ScanState) (cs : List Char) : s.behind (s.rewrite cs) = s.behind cs := by
  induction cs generalizing s with
  | nil => rw [rewrite_nil]
  | cons c cs ih =>
    rw [rewrite_cons, behind_append, behind_written, ih]
    rfl

theorem isEnd_of_mem_rewrite : ∀ p ∈ s.trace (s.rewrite cs), p.1.isEnd p.2 = false := by
  intro p hp
  rw [trace_rewrite] at hp
  obtain ⟨q, -, hq⟩ := List.mem_flatMap.mp hp
  exact isEnd_of_mem_written p hq

/-- A text in which the scanner finds no end of a line stays as it is. -/
theorem rewrite_eq_self (h : ∀ p ∈ s.trace cs, p.1.isEnd p.2 = false) : s.rewrite cs = cs := by
  induction cs generalizing s with
  | nil => rw [rewrite_nil]
  | cons c cs ih =>
    obtain ⟨hc, hcs⟩ := List.forall_mem_cons.mp h
    rw [rewrite_cons, written, hc, ih hcs]
    rfl

theorem rewrite_eq_flatMap (s : ScanState) (cs : List Char) :
    s.rewrite cs = (s.trace cs).flatMap fun p => p.1.written p.2 := by
  induction cs generalizing s with
  | nil => exact rewrite_nil s
  | cons c cs ih =>
    rw [rewrite_cons, ih]
    rfl

/-- Behind a text the scanner goes on in the state that the text leads to. -/
theorem rewrite_append (s : ScanState) (cs ds : List Char) :
    s.rewrite (cs ++ ds) = s.rewrite cs ++ (s.behind cs).rewrite ds := by
  induction cs generalizing s with
  | nil =>
    rw [rewrite_nil]
    rfl
  | cons c cs ih =>
    rw [List.cons_append, rewrite_cons, rewrite_cons, ih, List.append_assoc]
    rfl

/-! ### The pairs -/

theorem le_of_mem_pairs {j : Nat} (h : j ∈ s.pairs i cs) : i ≤ j := by
  induction cs generalizing s i with
  | nil => cases h
  | cons c cs ih =>
    rw [pairs] at h
    split at h
    · rcases List.mem_cons.mp h with rfl | h
      · exact Nat.le_refl _
      · have hrest := ih h
        omega
    · have hrest := ih h
      omega

/-- Each place holds a pair that the scanner wrote. -/
theorem pair_of_mem_pairs {j : Nat} (h : i + j ∈ s.pairs i cs) : ['\\', 'Z'] <+: (s.rewrite cs).drop j := by
  induction cs generalizing s i j with
  | nil => cases h
  | cons c cs ih =>
    rw [rewrite_cons, written]
    rw [pairs] at h
    split at h
    · next hend =>
      rw [if_pos hend]
      rcases List.mem_cons.mp h with hj | h
      · obtain rfl : j = 0 := by omega
        exact List.prefix_append _ _
      · have hle := le_of_mem_pairs h
        obtain ⟨k, rfl⟩ : ∃ k, j = k + 2 := ⟨j - 2, by omega⟩
        have hplace : i + (k + 2) = i + 2 + k := by omega
        rw [hplace] at h
        exact ih h
    · next hend =>
      rw [if_neg hend]
      have hle := le_of_mem_pairs h
      obtain ⟨k, rfl⟩ : ∃ k, j = k + 1 := ⟨j - 1, by omega⟩
      have hplace : i + (k + 1) = i + 1 + k := by omega
      rw [hplace] at h
      exact ih h

theorem restore_keep (h : i ∉ places) (cs : List Char) : restore places i (c :: cs) = c :: restore places (i + 1) cs := by
  cases cs with
  | nil => rfl
  | cons d cs => rw [restore, if_neg h]

/-- The places count from a place on only: there they have to be those of the pairs. -/
theorem restore_rewrite (h : ∀ j, i ≤ j → (j ∈ places ↔ j ∈ s.pairs i cs)) : restore places i (s.rewrite cs) = cs := by
  induction cs generalizing s i with
  | nil =>
    rw [rewrite_nil]
    rfl
  | cons c cs ih =>
    rw [rewrite_cons, written]
    cases hend : s.isEnd c with
    | true =>
      obtain ⟨-, rfl⟩ := isEnd_iff.mp hend
      have hplaces : ∀ j, i ≤ j → (j ∈ places ↔ j = i ∨ j ∈ (s.next '$').pairs (i + 2) cs) := by
        intro j hj
        rw [h j hj, pairs, if_pos hend, List.mem_cons]
      have hi : i ∈ places := (hplaces i (Nat.le_refl i)).mpr (.inl rfl)
      have hrest := ih fun j hj => (hplaces j (by omega)).trans (or_iff_right (by omega))
      show restore places i ('\\' :: 'Z' :: (s.next '$').rewrite cs) = '$' :: cs
      rw [restore, if_pos hi, hrest]
    | false =>
      have hplaces : ∀ j, i ≤ j → (j ∈ places ↔ j ∈ (s.next c).pairs (i + 1) cs) := by
        intro j hj
        rw [h j hj, pairs, hend, if_neg Bool.false_ne_true]
      have hi : i ∉ places := by
        intro hmem
        have hle := le_of_mem_pairs ((hplaces i (Nat.le_refl i)).mp hmem)
        omega
      show restore places i (c :: (s.next c).rewrite cs) = c :: cs
      rw [restore_keep hi, ih fun j hj => hplaces j (by omega)]

end ScanState

open ScanState in
/-- The scanner of end anchors is stable. A second scan changes nothing: it meets no sign that it takes for the end of a line,
for it reads all that was written for a character from the state in which the first scan met the character, and ends in the
same state. The text that was scanned comes back when the pairs that the scanner wrote, and no others, become signs again. -/
theorem strictEnds_stable (body : List Char) :
    strictEnds false false (strictEnds false false body) = strictEnds false false body ∧
    (strictEnds false false body = (initial.trace body).flatMap (fun p => p.1.written p.2) ∧
      ∀ rest, strictEnds false false (body ++ rest) =
        strictEnds false false body ++ strictEnds (initial.behind body).inSet (initial.behind body).escaped rest) ∧
    (∀ p ∈ initial.trace (strictEnds false false body), p.1.isEnd p.2 = false) ∧
    initial.trace (strictEnds false false body) = (initial.trace body).flatMap (fun p => p.1.trace (p.1.written p.2)) ∧
    initial.behind (strictEnds false false body) = initial.behind body ∧
    (∀ i ∈ initial.pairs 0 body, ['\\', 'Z'] <+: (strictEnds false false body).drop i) ∧
    restore (initial.pairs 0 body) 0 (strictEnds false false body) = body := by
  have hagain : initial.rewrite (initial.rewrite body) = initial.rewrite body := rewrite_eq_self isEnd_of_mem_rewrite
  refine ⟨hagain, ⟨rewrite_eq_flatMap initial body, rewrite_append initial body⟩,
    isEnd_of_mem_rewrite, trace_rewrite initial body, behind_rewrite initial body, ?_, ?_⟩
  · intro i hi
    rw [← Nat.zero_add i] at hi
    exact pair_of_mem_pairs hi
  · exact restore_rewrite fun j _ => Iff.rfl

open ScanState in
/-- A sign in a row, one in a set and one that is escaped, a set without an end, and a backslash at the end of the text. -/
theorem strictEnds_stable_mixed :
    strictEnds false false "$[$]\\$$[$\\".toList = "\\Z[$]\\$\\Z[$\\".toList ∧
    strictEnds false false "\\Z[$]\\$\\Z[$\\".toList = "\\Z[$]\\$\\Z[$\\".toList ∧
    7 ∈ initial.pairs 0 "$[$]\\$$[$\\".toList ∧ ['\\', 'Z'] <+: "\\Z[$]\\$\\Z[$\\".toList.drop 7 ∧
    initial.behind "\\Z[$]\\$\\Z[$\\".toList = ⟨true, true⟩ ∧
    restore [0, 7] 0 "\\Z[$]\\$\\Z[$\\".toList = "$[$]\\$$[$\\".toList := by
  have hscan : strictEnds false false "$[$]\\$$[$\\".toList = "\\Z[$]\\$\\Z[$\\".toList := by decide
  have hpairs : initial.pairs 0 "$[$]\\$$[$\\".toList = [0, 7] := by decide
  have hmem : 7 ∈ initial.pairs 0 "$[$]\\$$[$\\".toList := by
    rw [hpairs]
    decide
  have hbehind : initial.behind "$[$]\\$$[$\\".toList = ⟨true, true⟩ := by decide
  obtain ⟨hagain, -, -, -, hstate, hplaces, hback⟩ := strictEnds_stable "$[$]\\$$[$\\".toList
  have hplace := hplaces 7 hmem
  rw [hscan] at hagain hstate hplace hback
  rw [hpairs] at hback
  exact ⟨hscan, hagain, hmem, hplace, hstate.trans hbehind, hback⟩

end RuleTree.PatternLiteral
