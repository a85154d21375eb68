import RuleTree.Json.Reader
import RuleTree.Json.Writer
import RuleTree.Proofs.Rows

/-!
# Nested values

Values that are made of rows and of mappings with different names, and the texts that are written for them: the texts of the
parts between brackets, with marks between them and line breaks around them.
-/

namespace RuleTree

namespace Value

/-- Rows, and mappings of fields with different names, down to values of a sort. -/
inductive Nested (P : Value → Prop) : Value → Prop
  | atom {v : Value} (h : P v) : Nested P v
  | list {vs : List Value} (h : ∀ v ∈ vs, Nested P v) : Nested P (.list vs)
  | fields {fields : List (String × Value)} (names : (fields.map Prod.fst).Nodup) (h : ∀ f ∈ fields, Nested P f.2) :
      Nested P (ofFields fields)

/-- A field with a new name is put behind the others. -/
theorem put_fields {fields : List (String × Value)} {f : String × Value} (h : f.1 ∉ fields.map Prod.fst) :
    put (fields.map fun f => (.str f.1, f.2)) (.str f.1) f.2 = (fields ++ [f]).map fun f => (.str f.1, f.2) := by
  have hnew : ((fields.map fun f => (Value.str f.1, f.2)).any fun e => eqv (.str f.1) e.1) = false := by
    rw [List.any_eq_false]
    intro e he
    obtain ⟨g, hg, rfl⟩ := List.mem_map.mp he
    have hne : f.1 ≠ g.1 := by
      intro heq
      rw [heq] at h
      exact h (List.mem_map_of_mem hg)
    simp only [eqv, eqvAtom, beq_iff_eq]
    exact hne
  rw [put, hnew, if_neg Bool.false_ne_true, List.map_append]
  rfl

theorem foldl_put_fields (before fields : List (String × Value)) (h : ((before ++ fields).map Prod.fst).Nodup) :
    (fields.map fun f => (Value.str f.1, f.2)).foldl (fun es p => put es p.1 p.2) (before.map fun f => (.str f.1, f.2)) =
      (before ++ fields).map fun f => (.str f.1, f.2) := by
  induction fields generalizing before with
  | nil => simp
  | cons f fields ih =>
    have hnew : f.1 ∉ before.map Prod.fst := by
      rw [List.map_append, List.nodup_append] at h
      exact fun hmem => h.2.2 _ hmem _ List.mem_cons_self rfl
    rw [List.append_cons] at h ⊢
    rw [List.map_cons, List.foldl_cons, put_fields hnew]
    exact ih _ h

/-- A mapping of pairs with different names is made of just these pairs. -/
theorem ofPairs_fields {fields : List (String × Value)} (h : (fields.map Prod.fst).Nodup) :
    ofPairs (fields.map fun f => (.str f.1, f.2)) = ofFields fields :=
  congrArg Value.map (foldl_put_fields [] fields h)

end Value

namespace Json

/-! ### Texts of values -/

section Texts

variable {indent : Option Nat} {level : Nat}

theorem writeItems_eq_ok_iff {vs : List Value} {texts : List String} :
    writeItems indent level vs = .ok texts ↔ List.Forall₂ (fun v text => write indent level v = .ok text) vs texts := by
  induction vs generalizing texts with
  | nil => simp [writeItems, eq_comm]
  | cons v vs ih =>
    rw [writeItems, List.forall₂_cons_left_iff]
    simp only [bind_eq_ok_iff, pure_eq_ok_iff, ih]
    constructor
    · intro h'
      obtain ⟨text, htext, texts, htexts, rfl⟩ := h'
      exact ⟨text, texts, htext, htexts, rfl⟩
    · intro h'
      obtain ⟨text, texts, htext, htexts, rfl⟩ := h'
      exact ⟨text, htext, texts, htexts, rfl⟩

/-- A field, its name before its text. -/
def WritesField (indent : Option Nat) (level : Nat) (f : String × Value) (part : String) : Prop :=
  ∃ text, write indent level f.2 = .ok text ∧ part = quote f.1 ++ ": " ++ text

theorem writeEntries_eq_ok_iff {fields : List (String × Value)} {parts : List String} :
    writeEntries indent level (fields.map fun f => (.str f.1, f.2)) = .ok parts ↔
      List.Forall₂ (WritesField indent level) fields parts := by
  induction fields generalizing parts with
  | nil => simp [writeEntries, eq_comm]
  | cons f fields ih =>
    have hkey : key (.str f.1) = .ok (quote f.1) := rfl
    rw [List.map_cons, writeEntries, hkey, List.forall₂_cons_left_iff]
    simp only [bind_eq_ok_iff, pure_eq_ok_iff, ih, Except.ok.injEq, exists_eq_left']
    constructor
    · intro h'
      obtain ⟨text, htext, parts, hparts, rfl⟩ := h'
      exact ⟨_, parts, ⟨text, htext, rfl⟩, hparts, rfl⟩
    · intro h'
      obtain ⟨_, parts, ⟨text, htext, rfl⟩, hparts, rfl⟩ := h'
      exact ⟨text, htext, parts, hparts, rfl⟩

theorem write_list {vs : List Value} {text : String} : write indent level (.list vs) = .ok text ↔
    ∃ texts, List.Forall₂ (fun v text => write indent (level + 1) v = .ok text) vs texts ∧
      bracket indent level "[" "]" texts = text := by
  rw [write, map_eq_ok_iff]
  simp only [writeItems_eq_ok_iff]

theorem write_fields {fields : List (String × Value)} {text : String} : write indent level (.ofFields fields) = .ok text ↔
    ∃ parts, List.Forall₂ (WritesField indent (level + 1)) fields parts ∧ bracket indent level "\x7b" "\x7d" parts = text := by
  rw [Value.ofFields, write, map_eq_ok_iff]
  simp only [writeEntries_eq_ok_iff]

theorem exists_write_list {vs : List Value} : (∃ text, write indent level (.list vs) = .ok text) ↔
    ∀ v ∈ vs, ∃ text, write indent (level + 1) v = .ok text := by
  simp only [write_list, ← exists_forall₂_iff]
  constructor
  · rintro ⟨_, texts, h, -⟩
    exact ⟨texts, h⟩
  · rintro ⟨texts, h⟩
    exact ⟨_, texts, h, rfl⟩

theorem exists_write_fields {fields : List (String × Value)} : (∃ text, write indent level (.ofFields fields) = .ok text) ↔
    ∀ f ∈ fields, ∃ text, write indent (level + 1) f.2 = .ok text := by
  have hfield : ∀ f, (∃ part, WritesField indent (level + 1) f part) ↔ ∃ text, write indent (level + 1) f.2 = .ok text := by
    intro f
    constructor
    · rintro ⟨_, text, htext, -⟩
      exact ⟨text, htext⟩
    · rintro ⟨text, htext⟩
      exact ⟨_, text, htext, rfl⟩
  simp only [write_fields, ← hfield, ← exists_forall₂_iff]
  constructor
  · rintro ⟨_, parts, h, -⟩
    exact ⟨parts, h⟩
  · rintro ⟨parts, h⟩
    exact ⟨_, parts, h, rfl⟩

end Texts

/-! ### Brackets -/

section Brackets

variable {indent : Option Nat} {level : Nat}

theorem lineBreak_blank (indent : Option Nat) (level : Nat) : ∀ c ∈ (lineBreak indent level).toList, Cursor.isBlank c = true := by
  cases indent with
  | none => simp [lineBreak]
  | some n =>
    intro c hc
    rw [lineBreak, String.toList_ofList] at hc
    rcases List.mem_cons.mp hc with rfl | hc
    · decide
    · rw [List.eq_of_mem_replicate hc]
      decide

theorem lineBreak_head (indent : Option Nat) (level : Nat) : ∀ c ∈ (lineBreak indent level).toList.head?, c = '\n' := by
  cases indent with
  | none => simp [lineBreak]
  | some n => simp [lineBreak]

def mark (indent : Option Nat) (level : Nat) : String :=
  if indent.isSome then "," ++ lineBreak indent (level + 1) else ", "

theorem mark_toList (indent : Option Nat) (level : Nat) :
    ∃ blanks, (mark indent level).toList = ',' :: blanks ∧ ∀ c ∈ blanks, Cursor.isBlank c = true := by
  cases indent with
  | none => exact ⟨[' '], by simp [mark], List.forall_mem_singleton.mpr rfl⟩
  | some n =>
    refine ⟨_, ?_, lineBreak_blank (some n) (level + 1)⟩
    rw [mark, Option.isSome_some, if_pos rfl, String.toList_append]
    rfl

variable {opening close : Char} {before behind : String} {texts : List String}

theorem bracket_nil (hbefore : before.toList = [opening]) (hbehind : behind.toList = [close]) :
    (bracket indent level before behind []).toList = [opening, close] := by
  rw [bracket, List.isEmpty_nil, if_pos rfl, String.toList_append, hbefore, hbehind]
  rfl

theorem bracket_toList (hbefore : before.toList = [opening]) (hbehind : behind.toList = [close]) (hne : texts ≠ []) :
    (bracket indent level before behind texts).toList = opening :: ((lineBreak indent (level + 1)).toList ++
      (((mark indent level).intercalate texts).toList ++ ((lineBreak indent level).toList ++ [close]))) := by
  have hnonempty : texts.isEmpty = false := List.isEmpty_eq_false_iff.mpr hne
  rw [bracket, hnonempty, if_neg Bool.false_ne_true]
  dsimp only
  simp only [String.toList_append, hbefore, hbehind, List.append_assoc, mark]
  rfl

theorem exists_bracket_toList (hbefore : before.toList = [opening]) (hbehind : behind.toList = [close]) :
    ∃ cs, (bracket indent level before behind texts).toList = opening :: cs := by
  by_cases hne : texts = []
  · subst hne
    exact ⟨_, bracket_nil hbefore hbehind⟩
  · exact ⟨_, bracket_toList hbefore hbehind hne⟩

theorem length_intercalate_le (hbefore : before.toList = [opening]) (hbehind : behind.toList = [close]) (hne : texts ≠ []) :
    ((mark indent level).intercalate texts).length + 2 ≤ (bracket indent level before behind texts).length := by
  rw [← String.length_toList, ← String.length_toList, bracket_toList hbefore hbehind hne]
  simp only [List.length_append, List.length_cons, List.length_nil]
  omega

end Brackets

end Json

end RuleTree
