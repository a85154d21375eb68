import RuleTree.Proofs.Json.Nesting
import RuleTree.Proofs.Json.Numerals
import RuleTree.Proofs.Json.Quoted

/-!
# JSON read back

The JSON text of a value, on one line or indented, is read back as the value. Values qualify that are made of rows, mappings
with different names, texts, truth values, null, integers of no more digits than are read, and floating-point numbers. The
texts of parts are read one by one; each costs a unit of fuel, and the fuel is twice the length of the whole text.
-/

namespace RuleTree

namespace Json

/-! ### Values read back -/

/-- What may be read of a text for a value that holds no others. -/
def ReadableAtom : Value → Prop
  | .null => True
  | .bool _ => True
  | .number (.int i) => (Decimal.digits i.natAbs).length ≤ Decimal.maxDigits
  | .number (.float x) => x.isNaN = true → x = Binary64.nan
  | .str _ => True
  | _ => False

/-- What stands behind a value: nothing, or a mark that no number goes on with. -/
def Closes (rest : List Char) : Prop := ∀ c ∈ rest.head?, c = ',' ∨ c = ']' ∨ c = '\x7d' ∨ c = '\n'

/-- A text of a value: it begins with a character of its own, and with enough fuel the value is read of it, whatever may
follow. -/
structure ReadsBack (v : Value) (text : String) : Prop where
  opens : ∃ c cs, text.toList = c :: cs ∧ Cursor.isBlank c = false ∧ c ≠ ']' ∧ c ≠ '\ufeff'
  reads : ∀ (fuel position : Nat) (rest : List Char), 2 * text.length ≤ fuel → Closes rest →
    ∃ next, readValue fuel ⟨text.toList ++ rest, position⟩ = .ok (v, ⟨rest, next⟩)

section Blanks

variable {bs rest : List Char} {position : Nat}

theorem skipBlanks_append (hbs : ∀ c ∈ bs, Cursor.isBlank c = true) (hrest : ∀ c ∈ rest.head?, Cursor.isBlank c = false) :
    Cursor.skipBlanks ⟨bs ++ rest, position⟩ = ⟨rest, position + bs.length⟩ := by
  have htake : (bs ++ rest).takeWhile Cursor.isBlank = bs := takeWhile_append hbs hrest
  simp only [Cursor.skipBlanks, Cursor.skip, htake, List.drop_left]

theorem skipBlanks_self (hrest : ∀ c ∈ rest.head?, Cursor.isBlank c = false) :
    Cursor.skipBlanks ⟨rest, position⟩ = ⟨rest, position⟩ := @skipBlanks_append [] rest position (List.forall_mem_nil _) hrest

theorem stops_of_closes (h : Closes rest) : Stops rest := by
  intro c hc
  rcases h c hc with rfl | rfl | rfl | rfl <;> decide

end Blanks

/-! ### Atoms -/

section Atoms

theorem readValue_plain {c : Char} {cs : List Char} {position : Nat} (hquote : c ≠ '"') (hrow : c ≠ '[') (hmap : c ≠ '\x7b')
    (fuel : Nat) : readValue (fuel + 1) ⟨c :: cs, position⟩ = readPlain ⟨c :: cs, position⟩ := by
  rw [readValue]
  split
  · next heq => exact absurd (List.cons.inj heq).1 hquote
  · next heq => exact absurd (List.cons.inj heq).1 hrow
  · next heq => exact absurd (List.cons.inj heq).1 hmap
  · rfl

theorem readValue_quote {cs : List Char} {position : Nat} (fuel : Nat) : readValue (fuel + 1) ⟨'"' :: cs, position⟩ =
    (readString ⟨cs, position + 1⟩).map fun (s, next) => (.str s, next) := by
  rw [readValue]
  rfl

theorem quote_toList (s : String) : (quote s).toList = '"' :: (s.toList.flatMap escapeChar ++ ['"']) := by
  rw [quote, String.toList_ofList]
  rfl

theorem length_of_toList {text : String} {c : Char} {cs : List Char} (h : text.toList = c :: cs) : 0 < text.length := by
  rw [← String.length_toList, h]
  exact Nat.succ_pos _

theorem readsBack_str (s : String) : ReadsBack (.str s) (quote s) := by
  refine ⟨⟨_, _, quote_toList s, by decide, by decide, by decide⟩, ?_⟩
  intro fuel position rest hfuel _
  have hpos : 0 < (quote s).length := length_of_toList (quote_toList s)
  obtain ⟨fuel, rfl⟩ := Nat.exists_eq_add_of_lt (show 0 < fuel by omega)
  obtain ⟨next, hread⟩ := readString_quote s rest (position + 1)
  refine ⟨next, ?_⟩
  rw [Nat.zero_add, quote_toList, List.cons_append, List.append_assoc, List.singleton_append, readValue_quote, hread]
  rfl

/-- What is read without regard to fuel, and begins with no quote and no bracket. -/
theorem readsBack_plain {v : Value} {text : String} {c : Char} {cs : List Char} (htext : text.toList = c :: cs)
    (hc : Cursor.isBlank c = false ∧ c ∉ ['"', '[', ']', '\x7b', '\ufeff'])
    (hread : ∀ (rest : List Char) (position : Nat), Stops rest →
      ∃ next, readPlain ⟨text.toList ++ rest, position⟩ = .ok (v, ⟨rest, next⟩)) : ReadsBack v text := by
  obtain ⟨hblank, hmem⟩ := hc
  simp only [List.mem_cons, List.not_mem_nil, or_false, not_or] at hmem
  obtain ⟨hquote, hrow, hclose, hmap, hmark⟩ := hmem
  refine ⟨⟨c, cs, htext, hblank, hclose, hmark⟩, ?_⟩
  intro fuel position rest hfuel hrest
  have hpos : 0 < text.length := length_of_toList htext
  obtain ⟨fuel, rfl⟩ := Nat.exists_eq_add_of_lt (show 0 < fuel by omega)
  obtain ⟨next, hnext⟩ := hread rest position (stops_of_closes hrest)
  refine ⟨next, ?_⟩
  rw [htext, List.cons_append] at hnext ⊢
  rw [Nat.zero_add, readValue_plain hquote hrow hmap, hnext]

theorem readsBack_word {word : String} {v : Value} (h : (word, v) ∈ words) : ReadsBack v word := by
  have hfirst : ∀ w ∈ words, ∃ c cs, w.1.toList = c :: cs ∧
      (Cursor.isBlank c = false ∧ c ∉ ['"', '[', ']', '\x7b', '\ufeff']) := by
    intro w hw
    simp only [words, List.mem_cons, List.not_mem_nil, or_false] at hw
    rcases hw with rfl | rfl | rfl | rfl | rfl | rfl
    all_goals exact ⟨_, _, rfl, by decide, by decide⟩
  obtain ⟨c, cs, htext, hc⟩ := hfirst (word, v) h
  exact readsBack_plain htext hc fun rest position _ => readPlain_word h position

theorem readsBack_numeral {n : Numeral} {x : Number} {text : String} (h : n.Proper) (htext : text.toList = n.chars)
    (hx : n.number = .ok x) : ReadsBack (.number x) text := by
  have hfirst : ∃ c cs, n.chars = c :: cs ∧ (Cursor.isBlank c = false ∧ c ∉ ['"', '[', ']', '\x7b', '\ufeff']) := by
    cases hneg : n.negative with
    | true => exact ⟨'-', _, by rw [Numeral.chars, hneg]; rfl, by decide, by decide⟩
    | false =>
      cases hwhole : n.whole with
      | nil => exact absurd hwhole h.whole.nonempty
      | cons d ds =>
        have hd : Decimal.isDigit d = true := h.whole.digits d (by rw [hwhole]; exact List.mem_cons_self)
        refine ⟨d, _, by rw [Numeral.chars, hneg, hwhole]; rfl, ?_, ?_⟩
        · by_contra hblank
          simp only [Cursor.isBlank, Bool.not_eq_false, Bool.or_eq_true, beq_iff_eq] at hblank
          rcases hblank with ((rfl | rfl) | rfl) | rfl <;> exact absurd hd (by decide)
        · intro hmem
          simp only [List.mem_cons, List.not_mem_nil, or_false] at hmem
          rcases hmem with rfl | rfl | rfl | rfl | rfl <;> exact absurd hd (by decide)
  obtain ⟨c, cs, hchars, hc⟩ := hfirst
  refine readsBack_plain (htext.trans hchars) hc fun rest position hrest => ?_
  rw [htext]
  exact readPlain_chars h hx hrest position

theorem eq_infinity {x : Binary64} (hfinite : x.isFinite = false) (hnan : x.isNaN = false) :
    x = Binary64.infinity x.negative := by
  obtain ⟨negative, exponent, fraction, _, _⟩ := x
  have hexponent : exponent = 2047 := by simpa [Binary64.isFinite] using hfinite
  have hfraction : fraction = 0 := by simpa [Binary64.isNaN, hexponent] using hnan
  subst hexponent hfraction
  rfl

theorem format_nan : Binary64.nan.format layout = "NaN" := rfl

theorem format_infinity (negative : Bool) :
    (Binary64.infinity negative).format layout = if negative then "-Infinity" else "Infinity" := by
  cases negative <;> rfl

theorem readsBack_float {x : Binary64} (hx : x.isNaN = true → x = Binary64.nan) :
    ReadsBack (.number (.float x)) (x.format layout) := by
  cases hfinite : x.isFinite with
  | true =>
    obtain ⟨n, hproper, htext, hnumber⟩ := exists_numeral hfinite
    exact readsBack_numeral hproper htext hnumber
  | false =>
    cases hnan : x.isNaN with
    | true =>
      rw [hx hnan, format_nan]
      exact readsBack_word (by simp [words])
    | false =>
      rw [eq_infinity hfinite hnan, format_infinity]
      cases x.negative with
      | true => exact readsBack_word (by simp [words])
      | false => exact readsBack_word (by simp [words])

theorem readsBack_atom {v : Value} {text : String} (h : ReadableAtom v) (htext : atom? v = some text) : ReadsBack v text := by
  cases v with
  | null =>
    cases htext
    exact readsBack_word (by simp [words])
  | bool b =>
    cases htext
    cases b with
    | true => exact readsBack_word (by simp [words])
    | false => exact readsBack_word (by simp [words])
  | number n =>
    cases n with
    | int i =>
      cases htext
      exact readsBack_numeral (integerNumeral_proper i) (integer_toList i) (integerNumeral_number h)
    | ratio q => exact h.elim
    | float x =>
      cases htext
      exact readsBack_float h
  | str s =>
    cases htext
    exact readsBack_str s
  | _ => exact h.elim

end Atoms

/-! ### Parts in a row -/

section Rows

variable {α : Type} {Part : α → String → Prop} {close : Char} {readAll : Nat → Cursor → Except ReadFault (List α × Cursor)}

/-- How a reader of rows goes over the text of one part: it stops at the closing bracket, and goes on behind a comma. -/
structure ReadsParts (Part : α → String → Prop) (close : Char)
    (readAll : Nat → Cursor → Except ReadFault (List α × Cursor)) : Prop where
  opens : ∀ {a : α} {text : String}, Part a text →
    ∃ c cs, text.toList = c :: cs ∧ Cursor.isBlank c = false ∧ c ≠ close
  last : ∀ {a : α} {text : String} {fuel position : Nat} {bs rest : List Char}, Part a text → 2 * text.length ≤ fuel →
    (∀ c ∈ bs, Cursor.isBlank c = true) → (∀ c ∈ bs.head?, c = '\n') →
      ∃ next, readAll (fuel + 1) ⟨text.toList ++ (bs ++ close :: rest), position⟩ = .ok ([a], ⟨rest, next⟩)
  next : ∀ {a : α} {text : String} {fuel position : Nat} {blanks cs rest : List Char} {as : List α}, Part a text →
    2 * text.length ≤ fuel → (∀ c ∈ blanks, Cursor.isBlank c = true) → (∀ c ∈ cs.head?, Cursor.isBlank c = false) →
      (∀ position, ∃ next, readAll fuel ⟨cs, position⟩ = .ok (as, ⟨rest, next⟩)) →
        ∃ next, readAll (fuel + 1) ⟨text.toList ++ (',' :: (blanks ++ cs)), position⟩ = .ok (a :: as, ⟨rest, next⟩)

theorem ReadsParts.opens_intercalate (hparts : ReadsParts Part close readAll) {as : List α} {texts : List String}
    (h : List.Forall₂ Part as texts) (hne : texts ≠ []) (mark : String) :
    ∃ c cs, (mark.intercalate texts).toList = c :: cs ∧ Cursor.isBlank c = false ∧ c ≠ close := by
  cases h with
  | nil => exact absurd rfl hne
  | @cons a text as texts ha has =>
    obtain ⟨c, cs, htext, hc⟩ := hparts.opens ha
    cases texts with
    | nil => exact ⟨c, cs, by rw [String.intercalate_singleton, htext], hc⟩
    | cons other others =>
      refine ⟨c, cs ++ mark.toList ++ (mark.intercalate (other :: others)).toList, ?_, hc⟩
      rw [String.intercalate_cons_cons, String.toList_append, String.toList_append, htext, List.cons_append,
        List.cons_append]

/-- A row of texts with commas and blanks between them is read part by part. -/
theorem ReadsParts.intercalate (hparts : ReadsParts Part close readAll) {mark : String} {blanks bs : List Char}
    (hmark : mark.toList = ',' :: blanks) (hblanks : ∀ c ∈ blanks, Cursor.isBlank c = true)
    (hbs : ∀ c ∈ bs, Cursor.isBlank c = true) (hhead : ∀ c ∈ bs.head?, c = '\n') {as : List α} {texts : List String}
    (h : List.Forall₂ Part as texts) (hne : texts ≠ []) :
    ∀ (fuel position : Nat) (rest : List Char), 2 * (mark.intercalate texts).length < fuel →
      ∃ next, readAll fuel ⟨(mark.intercalate texts).toList ++ (bs ++ close :: rest), position⟩ = .ok (as, ⟨rest, next⟩) := by
  induction h with
  | nil => exact absurd rfl hne
  | @cons a text as texts ha has ih =>
    intro fuel position rest hfuel
    -- Each part costs one unit of fuel, and its text has left more than one.
    obtain ⟨fuel, rfl⟩ := Nat.exists_eq_add_of_lt (Nat.zero_lt_of_lt hfuel)
    rw [Nat.zero_add] at hfuel ⊢
    cases has with
    | nil =>
      rw [String.intercalate_singleton] at hfuel ⊢
      exact hparts.last ha (by omega) hbs hhead
    | @cons b other _ others hb hothers =>
      have hmarklen : mark.length = blanks.length + 1 := by
        rw [← String.length_toList, hmark, List.length_cons]
      rw [String.intercalate_cons_cons, String.length_append, String.length_append, hmarklen] at hfuel
      rw [String.intercalate_cons_cons, String.toList_append, String.toList_append, hmark, List.append_assoc,
        List.append_assoc, List.cons_append]
      obtain ⟨c, cs, hjoined, hc, -⟩ := hparts.opens_intercalate (.cons hb hothers) (List.cons_ne_nil _ _) mark
      have hopens : ∀ c ∈ ((mark.intercalate (other :: others)).toList ++ (bs ++ close :: rest)).head?,
          Cursor.isBlank c = false := by
        simp [hjoined, hc]
      exact hparts.next ha (by omega) hblanks hopens fun position =>
        ih (List.cons_ne_nil _ _) fuel position rest (by omega)

section Steps

variable {v : Value} {text : String} {fuel position : Nat} {bs blanks cs rest : List Char}

theorem closes_append (hhead : ∀ c ∈ bs.head?, c = '\n') (hrest : Closes rest) : Closes (bs ++ rest) := by
  cases bs with
  | nil => exact hrest
  | cons b bs => exact fun c hc => .inr (.inr (.inr (hhead c hc)))

theorem closes_bracket (rest : List Char) (hclose : close = ']' ∨ close = '\x7d') : Closes (close :: rest) := by
  intro c hc
  cases hc
  exact .inr (hclose.imp_right .inl)

theorem closes_comma (rest : List Char) : Closes (',' :: rest) := by
  intro c hc
  cases hc
  exact .inl rfl

theorem readItems_last (hv : ReadsBack v text) (hfuel : 2 * text.length ≤ fuel) (hbs : ∀ c ∈ bs, Cursor.isBlank c = true)
    (hhead : ∀ c ∈ bs.head?, c = '\n') :
    ∃ next, readItems (fuel + 1) ⟨text.toList ++ (bs ++ ']' :: rest), position⟩ = .ok ([v], ⟨rest, next⟩) := by
  obtain ⟨next, hread⟩ := hv.reads fuel position _ hfuel (closes_append hhead (closes_bracket rest (.inl rfl)))
  have hskip : Cursor.skipBlanks ⟨bs ++ ']' :: rest, next⟩ = ⟨']' :: rest, next + bs.length⟩ :=
    skipBlanks_append hbs (by simp [Cursor.isBlank])
  refine ⟨next + bs.length + 1, ?_⟩
  rw [readItems, hread]
  simp only [bind, Except.bind, hskip]
  rfl

theorem readItems_next {vs : List Value} (hv : ReadsBack v text) (hfuel : 2 * text.length ≤ fuel)
    (hblanks : ∀ c ∈ blanks, Cursor.isBlank c = true) (hcs : ∀ c ∈ cs.head?, Cursor.isBlank c = false)
    (ih : ∀ position, ∃ next, readItems fuel ⟨cs, position⟩ = .ok (vs, ⟨rest, next⟩)) :
    ∃ next, readItems (fuel + 1) ⟨text.toList ++ (',' :: (blanks ++ cs)), position⟩ = .ok (v :: vs, ⟨rest, next⟩) := by
  obtain ⟨next, hread⟩ := hv.reads fuel position _ hfuel (closes_comma (blanks ++ cs))
  have hskip : Cursor.skipBlanks ⟨',' :: (blanks ++ cs), next⟩ = ⟨',' :: (blanks ++ cs), next⟩ :=
    skipBlanks_self (by simp [Cursor.isBlank])
  obtain ⟨last, hlast⟩ := ih (next + 1 + blanks.length)
  refine ⟨last, ?_⟩
  have hskip' : Cursor.skipBlanks (Cursor.skip ⟨',' :: (blanks ++ cs), next⟩ 1) = ⟨cs, next + 1 + blanks.length⟩ :=
    skipBlanks_append hblanks hcs
  rw [readItems, hread]
  simp only [bind, Except.bind, hskip, List.head?_cons, hskip', hlast]
  rfl

theorem readsParts_items : ReadsParts ReadsBack ']' readItems where
  opens h := by
    obtain ⟨c, cs, htext, hblank, hclose, -⟩ := h.opens
    exact ⟨c, cs, htext, hblank, hclose⟩
  last := readItems_last
  next := readItems_next

/-- The text of an entry: its name in quotes, and the text of its value behind a colon. -/
def ReadsEntry (e : Value × Value) (part : String) : Prop :=
  ∃ s text, e.1 = .str s ∧ part = quote s ++ ": " ++ text ∧ ReadsBack e.2 text

/-- An entry is read up to what follows its value: the closing bracket, or a comma and the other entries. -/
theorem readEntries_entry (position : Nat) {e : Value × Value} {part : String} {tail : List Char} (h : ReadsEntry e part)
    (hfuel : 2 * part.length ≤ fuel) (htail : Closes tail) :
    ∃ p, (∀ cs q, Cursor.skipBlanks ⟨tail, p⟩ = ⟨'\x7d' :: cs, q⟩ →
        readEntries (fuel + 1) ⟨part.toList ++ tail, position⟩ = .ok ([e], ⟨cs, q + 1⟩)) ∧
      ∀ cs q es last, Cursor.skipBlanks ⟨tail, p⟩ = ⟨',' :: cs, q⟩ →
        readEntries fuel (Cursor.skipBlanks ⟨cs, q + 1⟩) = .ok (es, last) →
          readEntries (fuel + 1) ⟨part.toList ++ tail, position⟩ = .ok (e :: es, last) := by
  obtain ⟨k, v⟩ := e
  obtain ⟨s, text, rfl, rfl, hv⟩ := h
  have hchars : (quote s ++ ": " ++ text).toList ++ tail =
      '"' :: (s.toList.flatMap escapeChar ++ '"' :: (':' :: ' ' :: (text.toList ++ tail))) := by
    rw [String.toList_append, String.toList_append, quote_toList]
    simp
  obtain ⟨c, cs, htext, hblank, -⟩ := hv.opens
  obtain ⟨q, hname⟩ := readString_quote s (':' :: ' ' :: (text.toList ++ tail)) (position + 1)
  have hcolon : Cursor.skipBlanks ⟨':' :: ' ' :: (text.toList ++ tail), q⟩ = ⟨':' :: ' ' :: (text.toList ++ tail), q⟩ :=
    skipBlanks_self (by simp [Cursor.isBlank])
  have hbehind : Cursor.skipBlanks (Cursor.skip ⟨':' :: ' ' :: (text.toList ++ tail), q⟩ 1) =
      ⟨text.toList ++ tail, q + 1 + 1⟩ :=
    @skipBlanks_append [' '] _ _ (by simp [Cursor.isBlank]) (by simp [htext, hblank])
  rw [String.length_append] at hfuel
  obtain ⟨p, hread⟩ := hv.reads fuel (q + 1 + 1) tail (by omega) htail
  have hskip : Cursor.skip ⟨'"' :: (s.toList.flatMap escapeChar ++ '"' :: (':' :: ' ' :: (text.toList ++ tail))), position⟩ 1 =
      ⟨s.toList.flatMap escapeChar ++ '"' :: (':' :: ' ' :: (text.toList ++ tail)), position + 1⟩ := rfl
  refine ⟨p, fun cs q hend => ?_, fun cs q es last hcomma hes => ?_⟩
  · rw [hchars, readEntries]
    simp only [List.head?_cons, ne_eq, not_true_eq_false, if_false, hskip, hname, bind, Except.bind, hcolon, hbehind, hread,
      hend]
    rfl
  · have hothers : readEntries fuel (Cursor.skipBlanks (Cursor.skip ⟨',' :: cs, q⟩ 1)) = .ok (es, last) := hes
    rw [hchars, readEntries]
    simp only [List.head?_cons, ne_eq, not_true_eq_false, if_false, hskip, hname, bind, Except.bind, hcolon, hbehind, hread,
      hcomma, hothers]
    rfl

theorem readsParts_entries : ReadsParts ReadsEntry '\x7d' readEntries where
  opens := by
    rintro ⟨k, v⟩ part ⟨s, text, -, rfl, -⟩
    refine ⟨'"', s.toList.flatMap escapeChar ++ ['"'] ++ ": ".toList ++ text.toList, ?_, by decide, by decide⟩
    rw [String.toList_append, String.toList_append, quote_toList, List.cons_append, List.cons_append]
  last := by
    intro e part fuel position bs rest he hfuel hbs hhead
    obtain ⟨p, hlast, -⟩ := readEntries_entry position he hfuel
      (closes_append hhead (closes_bracket rest (.inr rfl)))
    exact ⟨_, hlast _ _ (skipBlanks_append hbs (by simp [Cursor.isBlank]))⟩
  next := by
    intro e part fuel position blanks cs rest es he hfuel hblanks hcs ih
    obtain ⟨p, -, hnext⟩ := readEntries_entry position he hfuel (closes_comma (blanks ++ cs))
    obtain ⟨last, hes⟩ := ih (p + 1 + blanks.length)
    refine ⟨last, hnext (blanks ++ cs) p es _ (skipBlanks_self (by simp [Cursor.isBlank])) ?_⟩
    rw [skipBlanks_append hblanks hcs]
    exact hes

end Steps

end Rows

/-! ### Brackets -/

section Brackets

variable {indent : Option Nat} {level : Nat} {rest : List Char}

/-- Parts between brackets are read one by one, with the blanks around them left out. -/
theorem ReadsParts.readsBack {α : Type} {Part : α → String → Prop} {opening close : Char}
    {readAll : Nat → Cursor → Except ReadFault (List α × Cursor)} (hparts : ReadsParts Part close readAll) {as : List α}
    {texts : List String} (h : List.Forall₂ Part as texts) {before behind : String} (hbefore : before.toList = [opening])
    (hbehind : behind.toList = [close]) (hopening : Cursor.isBlank opening = false ∧ opening ≠ ']' ∧ opening ≠ '\ufeff')
    {v : Value} (hnone : as = [] → ∀ fuel position rest,
      ∃ next, readValue (fuel + 1) ⟨opening :: close :: rest, position⟩ = .ok (v, ⟨rest, next⟩))
    (hsome : ∀ fuel position cs last, (Cursor.skipBlanks ⟨cs, position + 1⟩).rest.head? ≠ some close →
      readAll fuel (Cursor.skipBlanks ⟨cs, position + 1⟩) = .ok (as, last) →
        readValue (fuel + 1) ⟨opening :: cs, position⟩ = .ok (v, last)) :
    ReadsBack v (bracket indent level before behind texts) := by
  obtain ⟨cs, htext⟩ : ∃ cs, (bracket indent level before behind texts).toList = opening :: cs :=
    exists_bracket_toList hbefore hbehind
  obtain ⟨hblank, hclose, hmark⟩ := hopening
  refine ⟨⟨opening, cs, htext, hblank, hclose, hmark⟩, ?_⟩
  intro fuel position rest hfuel _
  have hpos : 0 < (bracket indent level before behind texts).length := length_of_toList htext
  obtain ⟨fuel, rfl⟩ := Nat.exists_eq_add_of_lt (show 0 < fuel by omega)
  rw [Nat.zero_add] at hfuel ⊢
  by_cases hne : texts = []
  · subst hne
    cases h
    rw [bracket_nil hbefore hbehind]
    exact hnone rfl fuel position rest
  · have hlength : ((mark indent level).intercalate texts).length + 2 ≤ (bracket indent level before behind texts).length :=
      length_intercalate_le hbefore hbehind hne
    obtain ⟨blanks, hblanks⟩ := mark_toList indent level
    obtain ⟨c, tail, hjoined, hc, hne'⟩ := hparts.opens_intercalate h hne (mark indent level)
    obtain ⟨next, hread⟩ := hparts.intercalate hblanks.1 hblanks.2 (lineBreak_blank indent level)
      (lineBreak_head indent level) h hne fuel (position + 1 + (lineBreak indent (level + 1)).toList.length) rest (by omega)
    have hskip : Cursor.skipBlanks ⟨(lineBreak indent (level + 1)).toList ++ (((mark indent level).intercalate texts).toList ++
        ((lineBreak indent level).toList ++ close :: rest)), position + 1⟩ = ⟨((mark indent level).intercalate texts).toList ++
          ((lineBreak indent level).toList ++ close :: rest), position + 1 + (lineBreak indent (level + 1)).toList.length⟩ :=
      skipBlanks_append (lineBreak_blank indent (level + 1)) (by simp [hjoined, hc])
    refine ⟨next, ?_⟩
    rw [bracket_toList hbefore hbehind hne, List.cons_append, List.append_assoc, List.append_assoc, List.append_assoc,
      List.singleton_append]
    apply hsome
    · rw [hskip]
      simp [hjoined, hne']
    · rw [hskip]
      exact hread

theorem readsBack_list {vs : List Value} {texts : List String} (h : List.Forall₂ ReadsBack vs texts) :
    ReadsBack (.list vs) (bracket indent level "[" "]" texts) := by
  apply readsParts_items.readsBack h (String.toList_ofList (l := ['['])) (String.toList_ofList (l := [']'])) (by decide)
  · rintro rfl fuel position rest
    refine ⟨position + 1 + 0 + 1, ?_⟩
    rw [readValue]
    rfl
  · intro fuel position cs last hhead hread
    have hskip : Cursor.skip ⟨'[' :: cs, position⟩ 1 = ⟨cs, position + 1⟩ := rfl
    rw [readValue]
    refine (if_neg hhead).trans ?_
    rw [hskip, hread]
    rfl

theorem readsBack_fields {fields : List (String × Value)} (hnames : (fields.map Prod.fst).Nodup) {parts : List String}
    (h : List.Forall₂ (fun f part => ∃ text, ReadsBack f.2 text ∧ part = quote f.1 ++ ": " ++ text) fields parts) :
    ReadsBack (.ofFields fields) (bracket indent level "\x7b" "\x7d" parts) := by
  have hentries : List.Forall₂ ReadsEntry (fields.map fun f => (.str f.1, f.2)) parts := by
    rw [List.forall₂_map_left_iff]
    refine h.imp fun f part hf => ?_
    obtain ⟨text, htext, hpart⟩ := hf
    exact ⟨f.1, text, rfl, hpart, htext⟩
  apply readsParts_entries.readsBack hentries (String.toList_ofList (l := ['\x7b'])) (String.toList_ofList (l := ['\x7d']))
    (by decide)
  · intro hnil fuel position rest
    have hnone : fields = [] := List.map_eq_nil_iff.mp hnil
    subst hnone
    refine ⟨position + 1 + 0 + 1, ?_⟩
    rw [readValue]
    rfl
  · intro fuel position cs last hhead hread
    have hskip : Cursor.skip ⟨'\x7b' :: cs, position⟩ 1 = ⟨cs, position + 1⟩ := rfl
    rw [readValue]
    refine (if_neg hhead).trans ?_
    rw [hskip, hread, ← Value.ofPairs_fields hnames]
    rfl

end Brackets

/-! ### Nested values -/

section Nested

variable {v : Value} {indent : Option Nat} {text : String}

theorem writeAtom_eq_ok_iff {fault : WriteFault} :
    writeAtom v fault = .ok text ↔ atom? v = some text ∧ v.isWritable = true := by
  unfold writeAtom
  cases atom? v with
  | none => simp
  | some written => cases v.isWritable <;> simp

theorem write_atom {level : Nat} (h : ReadableAtom v) : write indent level v = writeAtom v (.value v.typeName) := by
  cases v with
  | list vs => exact h.elim
  | tuple vs => exact h.elim
  | map es => exact h.elim
  | _ => rfl

theorem atom?_of_write {level : Nat} (h : ReadableAtom v) (htext : write indent level v = .ok text) : atom? v = some text := by
  rw [write_atom h] at htext
  exact (writeAtom_eq_ok_iff.mp htext).1

theorem readsBack (h : v.Nested ReadableAtom) : ∀ level text, write indent level v = .ok text → ReadsBack v text := by
  induction h with
  | atom h =>
    intro level text htext
    exact readsBack_atom h (atom?_of_write h htext)
  | list h ih =>
    intro level text htext
    obtain ⟨texts, htexts, rfl⟩ := write_list.mp htext
    apply readsBack_list
    exact forall₂_imp_of_mem htexts fun v hv text htext => ih v hv (level + 1) text htext
  | fields hnames h ih =>
    intro level text htext
    obtain ⟨parts, hparts, rfl⟩ := write_fields.mp htext
    apply readsBack_fields hnames
    refine forall₂_imp_of_mem hparts fun f hf part hpart => ?_
    obtain ⟨text, htext, rfl⟩ := hpart
    exact ⟨text, ih f hf (level + 1) text htext, rfl⟩

/-- The text of a value, on one line or indented, is read as the value. -/
theorem read_ofValue (h : v.Nested ReadableAtom) (htext : ofValue indent v = .ok text) : read text.toList = .ok v := by
  have hback : ReadsBack v text := readsBack h 0 text htext
  obtain ⟨c, cs, hchars, hblank, -, hmark⟩ := hback.opens
  obtain ⟨next, hread⟩ := hback.reads (2 * text.length + 1) 0 [] (by omega) (by simp [Closes])
  have hskip : Cursor.skipBlanks ⟨text.toList, 0⟩ = ⟨text.toList, 0⟩ := skipBlanks_self (by simp [hchars, hblank])
  have hhead : text.toList.head? ≠ some '\ufeff' := by simp [hchars, hmark]
  have hend : Cursor.skipBlanks ⟨[], next⟩ = ⟨[], next⟩ := skipBlanks_self (by simp)
  rw [List.append_nil] at hread
  unfold read
  rw [if_neg hhead, String.length_toList, hskip, hread]
  simp only [hend, List.isEmpty_nil, if_true]

end Nested

end Json

end RuleTree
