import RuleTree.Proofs.Yaml.Tokens
import RuleTree.Yaml.Scalar

/-!
# Words and numerals as scalars

What the words and the numerals that JSON writes without quotes are taken for, and that they are read as what they stand for.
A number with an exponent but no point has the form of a text.
-/

namespace RuleTree

open Decimal (isDigit ofDigits)

/-! ### The characters of numerals -/

namespace Json.Numeral

variable {n : Numeral} {c : Char}

/-- What numerals are written of. -/
def alphabet : List Char := ['0', '1', '2', '3', '4', '5', '6', '7', '8', '9', '.', 'e', '+', '-']

theorem mem_alphabet_of_isDigit (h : isDigit c = true) : c ∈ alphabet := by
  have hdigits : ∀ i < 10, Char.ofNat (48 + i) ∈ alphabet := by decide
  simp only [isDigit, Bool.and_eq_true, decide_eq_true_eq] at h
  have hlow : 48 ≤ c.toNat := h.1
  have hhigh : c.toNat ≤ 57 := h.2
  have hmem := hdigits (c.toNat - 48) (by omega)
  rwa [Nat.add_sub_cancel' hlow, Char.ofNat_toNat] at hmem

theorem ne_of_isDigit {d : Char} (h : isDigit c = true) (hd : isDigit d = false) : c ≠ d := by
  rintro rfl
  rw [h] at hd
  cases hd

theorem not_mem_digits {ds : List Char} (h : ∀ c ∈ ds, isDigit c = true) (hc : isDigit c = false) : c ∉ ds :=
  fun hmem => ne_of_isDigit (h c hmem) hc rfl

/-- The text behind the sign. -/
def body (n : Numeral) : List Char := n.whole ++ (n.fractionChars ++ n.exponentChars)

theorem chars_eq (n : Numeral) : n.chars = (if n.negative then ['-'] else []) ++ n.body := rfl

theorem body_of_none (hf : n.fraction = none) : n.body = n.whole ++ n.exponentChars := by
  rw [body, fractionChars, hf]
  rfl

theorem body_of_some {ds : List Char} (hf : n.fraction = some ds) : n.body = n.whole ++ '.' :: (ds ++ n.exponentChars) := by
  rw [body, fractionChars, hf]
  rfl

theorem mem_fractionChars (h : n.Proper) : ∀ c ∈ n.fractionChars, c ∈ alphabet := by
  unfold fractionChars
  cases hf : n.fraction with
  | none => exact List.forall_mem_nil _
  | some ds => exact List.forall_mem_cons.mpr ⟨by decide, fun c hc => mem_alphabet_of_isDigit ((h.fraction ds hf).2 c hc)⟩

theorem mem_exponentChars (h : n.Proper) : ∀ c ∈ n.exponentChars, c ∈ alphabet := by
  unfold exponentChars
  cases he : n.exponent with
  | none => exact List.forall_mem_nil _
  | some e =>
    have hsign : (if e.1 then '-' else '+') ∈ alphabet := by cases e.1 <;> decide
    exact List.forall_mem_cons.mpr ⟨by decide, List.forall_mem_cons.mpr
      ⟨hsign, fun c hc => mem_alphabet_of_isDigit ((h.exponent e he).2 c hc)⟩⟩

theorem mem_body (h : n.Proper) : ∀ c ∈ n.body, c ∈ alphabet :=
  List.forall_mem_append.mpr ⟨fun c hc => mem_alphabet_of_isDigit (h.whole.digits c hc),
    List.forall_mem_append.mpr ⟨mem_fractionChars h, mem_exponentChars h⟩⟩

theorem mem_chars (h : n.Proper) : ∀ c ∈ n.chars, c ∈ alphabet := by
  rw [chars_eq]
  refine List.forall_mem_append.mpr ⟨?_, mem_body h⟩
  cases n.negative with
  | true => exact List.forall_mem_singleton.mpr (by decide)
  | false => exact List.forall_mem_nil _

theorem body_eq_cons (h : n.Proper) : ∃ d ds, isDigit d = true ∧ n.body = d :: ds := by
  cases hwhole : n.whole with
  | nil => exact absurd hwhole h.whole.nonempty
  | cons d ds =>
    refine ⟨d, ds ++ (n.fractionChars ++ n.exponentChars), ?_, ?_⟩
    · exact h.whole.digits d (by rw [hwhole]; exact List.mem_cons_self)
    · rw [body, hwhole, List.cons_append]

theorem point_not_mem_exponentChars (h : n.Proper) : '.' ∉ n.exponentChars := by
  unfold exponentChars
  cases he : n.exponent with
  | none => exact List.not_mem_nil
  | some e =>
    intro hmem
    rcases List.mem_cons.mp hmem with hmem | hmem
    · cases hmem
    · rcases List.mem_cons.mp hmem with hmem | hmem
      · cases hsign : e.1 <;> simp [hsign] at hmem
      · exact not_mem_digits (h.exponent e he).2 rfl hmem

/-- A point stands in a numeral if it has a fraction. -/
theorem point_mem_chars_iff (h : n.Proper) : '.' ∈ n.chars ↔ n.fraction.isSome = true := by
  have hwhole : '.' ∉ n.whole := not_mem_digits h.whole.digits rfl
  have hexponent := point_not_mem_exponentChars h
  have hsign : '.' ∉ (if n.negative then ['-'] else []) := by cases n.negative <;> decide
  unfold chars fractionChars
  cases n.fraction with
  | none => simp [hsign, hwhole, hexponent]
  | some ds => simp

/-- What a numeral is that writes a floating-point number, and which number it writes. -/
theorem float_of_number {x : Binary64} (hx : n.number = .ok (.float x)) :
    (n.fraction.isSome = true ∨ n.exponent.isSome = true) ∧ x = Binary64.ofDecimal n.negative (ofDigits n.allDigits) n.scale := by
  obtain ⟨negative, whole, fraction, exponent⟩ := n
  cases fraction with
  | none =>
    cases exponent with
    | none =>
      rw [number] at hx
      dsimp only at hx
      split at hx <;> cases hx
    | some e =>
      obtain ⟨sign, es⟩ := e
      cases sign <;> exact ⟨.inr rfl, (Number.float.inj (Except.ok.inj hx)).symm⟩
  | some ds =>
    cases exponent with
    | none => exact ⟨.inl rfl, (Number.float.inj (Except.ok.inj hx)).symm⟩
    | some e =>
      obtain ⟨sign, es⟩ := e
      cases sign <;> exact ⟨.inl rfl, (Number.float.inj (Except.ok.inj hx)).symm⟩

end Json.Numeral

namespace Yaml

open Json (Numeral Whole)
open Json.Numeral (alphabet)
open Layout (StartsWord Written)
open Scan (IsWord IsWordChar)

variable {n : Numeral} {x : Binary64} {c : Char} {cs ds : List Char}

/-! ### Numerals as words -/

theorem isWord_chars (h : n.Proper) : IsWord n.chars where
  nonempty := by
    obtain ⟨d, ds, -, hbody⟩ := Numeral.body_eq_cons h
    rw [Numeral.chars_eq, hbody]
    exact List.append_ne_nil_of_right_ne_nil _ (List.cons_ne_nil _ _)
  chars := by
    have hall : ∀ c ∈ alphabet, IsWordChar c := List.all_iff_forall_prop.mp rfl
    exact fun c hc => hall c (Numeral.mem_chars h c hc)

theorem written_chars (h : n.Proper) : Written n.chars := by
  have hall : ∀ c ∈ alphabet, Text.IsPrintable c := List.all_iff_forall_prop.mp rfl
  exact fun c hc => .inl (hall c (Numeral.mem_chars h c hc))

theorem isAlphanum_of_isDigit (h : isDigit c = true) : c.isAlphanum = true := by
  have hall : ∀ d ∈ alphabet, isDigit d = true → d.isAlphanum = true := List.all_iff_forall_prop.mp rfl
  exact hall c (Numeral.mem_alphabet_of_isDigit h) h

theorem startsWord_chars (h : n.Proper) : StartsWord n.chars := by
  obtain ⟨d, ds, hd, hbody⟩ := Numeral.body_eq_cons h
  have halphanum := isAlphanum_of_isDigit hd
  rw [Numeral.chars_eq, hbody]
  cases n.negative with
  | true => exact .dash d ds (Layout.isBlankOrBreak_of_isAlphanum halphanum) (Numeral.ne_of_isDigit hd rfl)
  | false => exact .letter d ds halphanum

/-! ### The sort of a numeral -/

theorem unsigned_of_isDigit (h : isDigit c = true) : Tag.unsigned (c :: cs) = c :: cs := by
  rw [Tag.unsigned] <;> rintro rest hrest <;> cases hrest
  · exact Numeral.ne_of_isDigit (d := '+') h rfl rfl
  · exact Numeral.ne_of_isDigit (d := '-') h rfl rfl

theorem unsigned_chars (h : n.Proper) : Tag.unsigned n.chars = n.body := by
  obtain ⟨d, ds, hd, hbody⟩ := Numeral.body_eq_cons h
  rw [Numeral.chars_eq]
  cases n.negative with
  | true => rfl
  | false =>
    rw [hbody]
    exact unsigned_of_isDigit hd

/-- Words that begin in another way than numerals. -/
def NoNumerals (words : List String) : Prop := ∀ w ∈ words, (w.toList.head?.any fun c => isDigit c || c == '-') = false

instance (words : List String) : Decidable (NoNumerals words) :=
  inferInstanceAs (Decidable (∀ w ∈ words, (w.toList.head?.any fun c => isDigit c || c == '-') = false))

theorem NoNumerals.contains_eq_false {words : List String} (hwords : NoNumerals words) (hc : c ∈ cs.head?)
    (hfirst : isDigit c = true ∨ c = '-') : words.contains (String.ofList cs) = false := by
  rw [← Bool.not_eq_true, List.contains_iff_mem]
  intro hmem
  have hother := hwords _ hmem
  rw [String.toList_ofList, Option.mem_def.mp hc, Option.any_some, Bool.or_eq_false_iff, beq_eq_false_iff_ne] at hother
  rcases hfirst with hfirst | hfirst
  · rw [hother.1] at hfirst
    cases hfirst
  · exact hother.2 hfirst

theorem head?_chars (h : n.Proper) : ∃ c ∈ n.chars.head?, isDigit c = true ∨ c = '-' := by
  obtain ⟨d, ds, hd, hbody⟩ := Numeral.body_eq_cons h
  rw [Numeral.chars_eq, hbody]
  cases n.negative with
  | true => exact ⟨'-', rfl, .inr rfl⟩
  | false => exact ⟨d, rfl, .inl hd⟩

theorem withoutBreak_chars (h : n.Proper) : Tag.withoutBreak n.chars = n.chars := by
  rw [Tag.withoutBreak, if_neg]
  intro hlast
  exact absurd (Numeral.mem_chars h _ (List.mem_of_getLast? hlast)) (by decide)

theorem isDigitOrLine_of_isDigit (h : isDigit c = true) : Tag.isDigitOrLine c = true := by
  rw [Tag.isDigitOrLine, h, Bool.true_or]

theorem splitOn_digits (h : ∀ c ∈ ds, isDigit c = true) : ds.splitOn ':' = [ds] :=
  List.splitOn_eq_singleton (Numeral.not_mem_digits h rfl)

theorem startsWithDigit_whole (h : Whole ds) : Tag.startsWithDigit ds = true := by
  cases ds with
  | nil => exact absurd rfl h.nonempty
  | cons d ds => exact h.digits d List.mem_cons_self

theorem isExponent_exponentChars (h : n.Proper) : Tag.isExponent n.exponentChars = true := by
  unfold Numeral.exponentChars
  cases he : n.exponent with
  | none => rfl
  | some e =>
    obtain ⟨hne, hds⟩ := h.exponent e he
    have hsign : ((if e.1 then '-' else '+') == '+' || (if e.1 then '-' else '+') == '-') = true := by cases e.1 <;> rfl
    have hall : e.2.all isDigit = true := List.all_eq_true.mpr hds
    simp only [Option.elim_some, Tag.isExponent, hsign, List.isEmpty_eq_false_iff.mpr hne, hall]
    rfl

theorem dropWhile_exponentChars (h : ∀ c ∈ cs, Tag.isDigitOrLine c = true) :
    (cs ++ n.exponentChars).dropWhile Tag.isDigitOrLine = n.exponentChars := by
  rw [List.dropWhile_append_of_pos h]
  unfold Numeral.exponentChars
  cases n.exponent <;> rfl

/-- A numeral has the form of a floating-point number if it has a point. -/
theorem isFloatForm_chars (h : n.Proper) : Tag.isFloatForm n.chars = n.fraction.isSome := by
  have hwhole : ∀ c ∈ n.whole, (c != '.') = true :=
    fun c hc => bne_iff_ne.mpr (Numeral.ne_of_isDigit (h.whole.digits c hc) rfl)
  rw [Tag.isFloatForm, unsigned_chars h]
  cases hf : n.fraction with
  | none =>
    have hbody : ∀ c ∈ n.body, (c != '.') = true := by
      rw [Numeral.body_of_none hf]
      refine List.forall_mem_append.mpr ⟨hwhole, fun c hc => ?_⟩
      rw [bne_iff_ne]
      rintro rfl
      exact Numeral.point_not_mem_exponentChars h hc
    have htake : n.body.takeWhile (· != '.') = n.body := by
      rw [← List.append_nil n.body, List.takeWhile_append_of_pos hbody, List.takeWhile_nil]
    simp only [htake, List.drop_length, Option.isSome_none]
  | some ds =>
    obtain ⟨hne, hds⟩ := h.fraction ds hf
    obtain ⟨d, rest, hd, hcons⟩ := Numeral.body_eq_cons h
    have hbody := Numeral.body_of_some hf
    have htake : n.body.takeWhile (· != '.') = n.whole := by
      rw [hbody]
      exact Json.takeWhile_append hwhole (by simp)
    have hdrop : n.body.drop n.whole.length = '.' :: (ds ++ n.exponentChars) := by rw [hbody, List.drop_left]
    have hword {words : List String} (hwords : NoNumerals words) : words.contains (String.ofList n.body) = false :=
      hwords.contains_eq_false (by rw [hcons]; rfl) (.inl hd)
    have hall : n.whole.all Tag.isDigitOrLine = true :=
      List.all_eq_true.mpr fun c hc => isDigitOrLine_of_isDigit (h.whole.digits c hc)
    have hexponent := dropWhile_exponentChars (n := n) fun c hc => isDigitOrLine_of_isDigit (hds c hc)
    have hinf : NoNumerals [".inf", ".Inf", ".INF"] := by decide
    have hnan : NoNumerals [".nan", ".NaN", ".NAN"] := by decide
    simp only [htake, hdrop, hword hinf, hword hnan, splitOn_digits h.whole.digits, startsWithDigit_whole h.whole,
      List.isEmpty_eq_false_iff.mpr h.whole.nonempty, hall, hexponent, isExponent_exponentChars h]
    rfl

theorem isIntForm_of_head?_ne (hcs : Tag.unsigned cs = ds) (hhead : ds.head? ≠ some '0') (hcolon : ':' ∉ ds) :
    Tag.isIntForm cs = (Tag.startsWithDigit ds && ds.all Tag.isDigitOrLine) := by
  rw [Tag.isIntForm, hcs]
  split
  · exact absurd rfl hhead
  · exact absurd rfl hhead
  · exact absurd rfl hhead
  · exact absurd rfl hhead
  · simp only [List.splitOn_eq_singleton hcolon, List.all_nil, Bool.and_true]

theorem not_mem_body (h : n.Proper) (hc : c ∉ alphabet) : c ∉ n.body := fun hmem => hc (Numeral.mem_body h c hmem)

theorem body_head? (h : n.Proper) : n.body.head? = n.whole.head? := by
  rw [Numeral.body, List.head?_append_of_ne_nil _ h.whole.nonempty]

/-- Without a point, a numeral has the form of an integer if it has no exponent. -/
theorem isIntForm_chars (h : n.Proper) (hf : n.fraction = none) : Tag.isIntForm n.chars = n.exponent.isNone := by
  have hunsigned := unsigned_chars h
  have hbody := Numeral.body_of_none hf
  by_cases hhead : n.whole.head? = some '0'
  · rw [Tag.isIntForm, hunsigned, hbody, h.whole.head hhead, Numeral.exponentChars]
    cases n.exponent with
    | none => rfl
    | some e => simp [Tag.areDigits]
  · obtain ⟨d, ds, hd, hcons⟩ := Numeral.body_eq_cons h
    have hstart : Tag.startsWithDigit n.body = true := by rw [hcons]; exact hd
    rw [isIntForm_of_head?_ne hunsigned (by rwa [body_head? h]) (not_mem_body h (by decide)), hstart, Bool.true_and, hbody,
      List.all_append, List.all_eq_true.mpr fun c hc => isDigitOrLine_of_isDigit (h.whole.digits c hc), Bool.true_and,
      Numeral.exponentChars]
    cases n.exponent <;> rfl

theorem readDigits_eq_some {width : Nat} {r : Nat × List Char} (h : readDigits width cs = some r) :
    ∃ ds, ds.length = width ∧ (∀ c ∈ ds, isDigit c = true) ∧ cs = ds ++ r.2 := by
  rw [readDigits] at h
  split at h
  · next hds =>
    cases h
    exact ⟨cs.take width, hds.1, List.all_eq_true.mp hds.2, (List.take_append_drop width cs).symm⟩
  · cases h

/-- Digits are told from what stands behind them. -/
theorem digits_append_inj {ds' rest rest' : List Char} {d : Char} (hds : ∀ c ∈ ds, isDigit c = true)
    (hds' : ∀ c ∈ ds', isDigit c = true) (hc : isDigit c = false) (hd : isDigit d = false)
    (h : ds ++ c :: rest = ds' ++ d :: rest') : c = d := by
  have hhead {b : Char} {bs : List Char} (hb : isDigit b = false) : ∀ a ∈ (b :: bs).head?, isDigit a = false := by
    intro a ha
    rwa [← Option.mem_some.mp ha]
  have htake : ds = ds' := by
    rw [← Json.takeWhile_append hds (hhead hc), h, Json.takeWhile_append hds' (hhead hd)]
  rw [htake] at h
  exact (List.cons.inj (List.append_cancel_left h)).1

theorem after_eq_none (h : ∀ d ∈ cs.head?, d ≠ c) : Timestamp.after c cs = none := by
  cases cs with
  | nil => rfl
  | cons d ds => rw [Timestamp.after, if_neg (h d rfl)]

theorem read?_eq_none {r : Nat × List Char} (hyear : readDigits 4 cs = some r) (hr : ∀ c ∈ r.2.head?, c ≠ '-') :
    Timestamp.read? cs = none := by
  rw [Timestamp.read?, hyear]
  simp only [bind, Option.bind, after_eq_none hr]

/-- A date has a dash behind its first digits. A numeral has an exponent there. -/
theorem read?_chars (h : n.Proper) (hf : n.fraction = none) (he : n.exponent.isSome = true) :
    Timestamp.read? n.chars = none := by
  cases hyear : readDigits 4 n.chars with
  | none =>
    rw [Timestamp.read?, hyear]
    rfl
  | some r =>
    refine read?_eq_none hyear fun c hc => ?_
    rintro rfl
    obtain ⟨ds, hlen, hds, hchars⟩ := readDigits_eq_some hyear
    obtain ⟨rest, hrest⟩ := List.head?_eq_some_iff.mp hc
    obtain ⟨e, he⟩ := Option.isSome_iff_exists.mp he
    obtain ⟨d, ds, rfl⟩ := List.exists_cons_of_ne_nil (List.ne_nil_of_length_eq_add_one hlen)
    rw [Numeral.chars_eq, Numeral.body_of_none hf, Numeral.exponentChars, he, hrest] at hchars
    cases hneg : n.negative with
    | true =>
      rw [hneg] at hchars
      exact Numeral.ne_of_isDigit (hds d List.mem_cons_self) rfl (List.cons.inj hchars).1.symm
    | false =>
      rw [hneg] at hchars
      exact absurd (digits_append_inj h.whole.digits hds rfl rfl hchars) (by decide)

/-- What a numeral is taken for. -/
theorem ofPlain_chars (h : n.Proper) : Tag.ofPlain (String.ofList n.chars) =
    if n.fraction.isSome then .float else if n.exponent.isSome then .str else .int := by
  obtain ⟨c, hc, hfirst⟩ := head?_chars h
  have hword {words : List String} (hwords : NoNumerals words) : words.contains (String.ofList n.chars) = false :=
    hwords.contains_eq_false hc hfirst
  have hbool : NoNumerals Tag.boolWords := by decide
  have hnull : NoNumerals Tag.nullWords := by decide
  have hsigns : NoNumerals ["!", "&", "*"] := by decide
  have hmerge : NoNumerals ["<<"] := by decide
  have hvalue : NoNumerals ["="] := by decide
  have hbreak : ¬n.chars.head? = some '\n' := by
    rw [Option.mem_def.mp hc, Option.some.injEq]
    rcases hfirst with hdigit | rfl
    · exact Numeral.ne_of_isDigit hdigit rfl
    · decide
  rw [Tag.ofPlain]
  simp only [String.toList_ofList, hbreak, withoutBreak_chars h, hword hbool, hword hnull, hword hsigns, isFloatForm_chars h,
    Bool.false_eq_true, if_false]
  cases hf : n.fraction with
  | some ds => rfl
  | none =>
    simp only [isIntForm_chars h hf]
    cases he : n.exponent with
    | none => rfl
    | some e =>
      have hm : (String.ofList n.chars == "<<") = false := by simpa using hword hmerge
      have hv : (String.ofList n.chars == "=") = false := by simpa using hword hvalue
      simp only [hm, hv, read?_chars h hf (by rw [he]; rfl)]
      rfl

/-! ### Numbers -/

theorem filter_alphabet (hcs : ∀ c ∈ cs, c ∈ alphabet) : cs.filter (· != '_') = cs := by
  have hall : ∀ c ∈ alphabet, (c != '_') = true := List.all_iff_forall_prop.mp rfl
  exact List.filter_eq_self.mpr fun c hc => hall c (hcs c hc)

theorem strip_alphabet (hcs : ∀ c ∈ cs, c ∈ alphabet) : Text.strip cs = cs := by
  have hall : ∀ c ∈ alphabet, Text.isBlank c = false := List.all_iff_forall_prop.mp rfl
  have hdrop {ds : List Char} (hds : ∀ c ∈ ds, c ∈ alphabet) : ds.dropWhile Text.isBlank = ds := by
    cases ds with
    | nil => rfl
    | cons d ds => rw [List.dropWhile_cons, hall d (hds d List.mem_cons_self), if_neg Bool.false_ne_true]
  rw [Text.strip, hdrop hcs, hdrop fun c hc => hcs c (List.mem_reverse.mp hc), List.reverse_reverse]

theorem lower_alphabet (hcs : ∀ c ∈ cs, c ∈ alphabet) : (Text.lower (String.ofList cs)).toList = cs := by
  have hall : ∀ c ∈ alphabet, Text.lowerChar c = c := List.all_iff_forall_prop.mp rfl
  rw [Text.lower, String.toList_ofList, String.toList_ofList]
  exact (List.map_congr_left fun c hc => hall c (hcs c hc)).trans (List.map_id cs)

theorem signed_of_isDigit (h : isDigit c = true) : signed (c :: cs) = (false, c :: cs) := by
  rw [signed] <;> rintro rest hrest <;> cases hrest
  · exact Numeral.ne_of_isDigit (d := '-') h rfl rfl
  · exact Numeral.ne_of_isDigit (d := '+') h rfl rfl

theorem signed_body (h : n.Proper) : signed n.body = (false, n.body) := by
  obtain ⟨d, ds, hd, hbody⟩ := Numeral.body_eq_cons h
  rw [hbody]
  exact signed_of_isDigit hd

theorem signed_chars (h : n.Proper) : signed n.chars = (n.negative, n.body) := by
  rw [Numeral.chars_eq]
  cases n.negative with
  | true => rfl
  | false => exact signed_body h

/-- Decimal digits write a natural. -/
theorem foldlM_digits (h : ∀ c ∈ ds, isDigit c = true) (m : Nat) :
    ds.foldlM (fun n c => (digitIn? 10 c).map (10 * n + ·)) m = some (ds.foldl (fun n c => 10 * n + Decimal.digitValue c) m) := by
  have hall : ∀ c ∈ alphabet, isDigit c = true → digitIn? 10 c = some (Decimal.digitValue c) := List.all_iff_forall_prop.mp rfl
  induction ds generalizing m with
  | nil => rfl
  | cons d ds ih =>
    obtain ⟨hd, hds⟩ := List.forall_mem_cons.mp h
    rw [List.foldlM_cons, hall d (Numeral.mem_alphabet_of_isDigit hd) hd, List.foldl_cons]
    exact ih hds _

theorem integerIn_digits (h : Whole ds) (hlen : ds.length ≤ Decimal.maxDigits) : integerIn 10 ds = .ok (ofDigits ds) := by
  by_cases hhead : ds.head? = some '0'
  · rw [h.head hhead]
    rfl
  · have halphabet : ∀ c ∈ ds, c ∈ alphabet := fun c hc => Numeral.mem_alphabet_of_isDigit (h.digits c hc)
    have hvalue : ds.foldlM (fun n c => (digitIn? 10 c).map (10 * n + ·)) 0 = some (ofDigits ds) := foldlM_digits h.digits 0
    obtain ⟨d, ds, rfl⟩ := List.exists_cons_of_ne_nil h.nonempty
    have hzero : d ≠ '0' := fun heq => hhead (congrArg some heq)
    have hmost : ¬Decimal.maxDigits < ds.length + 1 := Nat.not_lt.mpr hlen
    rw [integerIn, strip_alphabet halphabet, signed_of_isDigit (h.digits d List.mem_cons_self)]
    simp [hzero, hvalue, hmost]

/-- An integer is read back unless it has too many digits. -/
theorem readInteger_integer {i : Int} (h : (Decimal.digits i.natAbs).length ≤ Decimal.maxDigits) :
    readInteger (Decimal.integer i) = .ok i := by
  have hwhole := Json.whole_digits i.natAbs
  have hvalue : ofDigits (Decimal.digits i.natAbs) = i.natAbs := Decimal.ofDigits_digits i.natAbs
  by_cases hhead : (Decimal.digits i.natAbs).head? = some '0'
  · rw [hwhole.head hhead] at hvalue
    obtain rfl : i = 0 := Int.natAbs_eq_zero.mp hvalue.symm
    rfl
  · have hproper := Json.integerNumeral_proper i
    have hbody : (Json.integerNumeral i).body = Decimal.digits i.natAbs := by
      simp [Numeral.body, Numeral.fractionChars, Numeral.exponentChars, Json.integerNumeral]
    have hread : integerIn 10 (Decimal.digits i.natAbs) = .ok i.natAbs := by rw [integerIn_digits hwhole h, hvalue]
    have hcolon : ':' ∉ Decimal.digits i.natAbs := Numeral.not_mem_digits hwhole.digits rfl
    rw [readInteger, Json.integer_toList, filter_alphabet (Numeral.mem_chars hproper), signed_chars hproper, hbody]
    obtain ⟨d, ds, hcons⟩ := List.exists_cons_of_ne_nil hwhole.nonempty
    rw [hcons] at hhead hread hcolon ⊢
    have hzero : d ≠ '0' := fun heq => hhead (congrArg some heq)
    have hsign : (Json.integerNumeral i).negative = decide (i < 0) := rfl
    simp only [List.cons.injEq, hzero, false_and, imp_false, not_false_eq_true, implies_true, List.contains_iff_mem, hcolon,
      if_false, hread, Except.map, hsign, decide_eq_true_eq]
    congr 1
    split <;> omega

theorem exponentChars_head? : ∀ c ∈ n.exponentChars.head?, c = 'e' := by
  unfold Numeral.exponentChars
  cases n.exponent with
  | none => exact fun c hc => absurd hc (Option.not_mem_none _)
  | some e => exact fun c hc => (Option.mem_some.mp hc).symm

theorem takeWhile_body (h : n.Proper) : n.body.takeWhile isDigit = n.whole := by
  refine Json.takeWhile_append h.whole.digits ?_
  unfold Numeral.fractionChars
  cases n.fraction with
  | none =>
    intro c hc
    rw [exponentChars_head? c hc]
    decide
  | some ds =>
    intro c hc
    rw [← Option.mem_some.mp hc]
    decide

theorem splitDigits_fraction (hds : ∀ c ∈ ds, isDigit c = true) :
    Decimal.splitDigits (ds ++ n.exponentChars) = (ds, n.exponentChars) := by
  have hhead : ∀ c ∈ n.exponentChars.head?, isDigit c = false := by
    intro c hc
    rw [exponentChars_head? c hc]
    decide
  have htake : (ds ++ n.exponentChars).takeWhile isDigit = ds := Json.takeWhile_append hds hhead
  have hsplit := Decimal.splitDigits_append (ds ++ n.exponentChars)
  rw [Decimal.splitDigits, htake] at hsplit ⊢
  exact Prod.ext rfl (List.append_cancel_left hsplit)

theorem exponent?_exponentChars (h : n.Proper) :
    exponent? n.exponentChars = some (n.exponent.elim 0 fun e => if e.1 then -(ofDigits e.2 : Int) else ofDigits e.2) := by
  unfold Numeral.exponentChars
  cases he : n.exponent with
  | none => rfl
  | some e =>
    obtain ⟨hne, hds⟩ := h.exponent e he
    obtain ⟨negative, es⟩ := e
    have hall : es.all isDigit = true := List.all_eq_true.mpr hds
    have hempty : es.isEmpty = false := List.isEmpty_eq_false_iff.mpr hne
    cases negative with
    | true => simp [exponent?, signed, hall, hempty]
    | false => simp [exponent?, signed, hall, hempty]

theorem floatOf_body (h : n.Proper) : floatOf n.body = .ok (Binary64.ofDecimal false (ofDigits n.allDigits) n.scale) := by
  have hall : ∀ c ∈ alphabet, plainDigit c = c := List.all_iff_forall_prop.mp rfl
  have hplain : n.body.map plainDigit = n.body :=
    (List.map_congr_left fun c hc => hall c (Numeral.mem_body h c hc)).trans (List.map_id _)
  have hinf : NoNumerals ["inf", "infinity", "nan"] := by decide
  obtain ⟨d, ds, hd, hcons⟩ := Numeral.body_eq_cons h
  have hhead : d ∈ n.body.head? := by rw [hcons]; rfl
  have hword := hinf.contains_eq_false hhead (.inl hd)
  simp only [List.contains_cons, List.contains_nil, Bool.or_false, Bool.or_eq_false_iff] at hword
  obtain ⟨hi, hinfinity, hn⟩ := hword
  have hexponent := exponent?_exponentChars h
  have hpoint : ∀ rest, n.exponentChars = '.' :: rest → False := by
    intro rest hrest
    have hc := exponentChars_head? (n := n) '.' (by rw [hrest]; rfl)
    cases hc
  rw [floatOf, strip_alphabet (Numeral.mem_body h), hplain, signed_body h]
  simp only [hi, hinfinity, hn, Bool.or_self, Bool.false_eq_true, if_false, takeWhile_body h]
  rw [Numeral.body, List.drop_left, Numeral.fractionChars]
  cases hf : n.fraction with
  | none =>
    simp only [Option.elim_none, List.nil_append, hexponent]
    simp [h.whole.nonempty, Numeral.allDigits, Numeral.scale, hf]
  | some ds =>
    obtain ⟨hne, hds⟩ := h.fraction ds hf
    simp only [Option.elim_some, List.cons_append, splitDigits_fraction hds, hexponent]
    simp [hne, Numeral.allDigits, Numeral.scale, hf]

/-- The sign of a decimal is that of its number. -/
theorem ofDecimal_sign (negative : Bool) (m : Nat) (e : Int) :
    Binary64.ofDecimal negative m e = { Binary64.ofDecimal false m e with negative := negative } := by
  unfold Binary64.ofDecimal Binary64.ofRatio Binary64.ofCode
  dsimp only
  split_ifs <;> rfl

/-- The number that a numeral writes, from the size that its body writes. -/
theorem signed_size (hx : n.number = .ok (.float x)) (hfinite : x.isFinite = true) :
    (if n.negative then (Binary64.ofDecimal false (ofDigits n.allDigits) n.scale).negate
      else Binary64.ofDecimal false (ofDigits n.allDigits) n.scale) = x := by
  have hsize := (Numeral.float_of_number hx).2
  cases hneg : n.negative with
  | false => rw [hsize, hneg, if_neg Bool.false_ne_true]
  | true =>
    rw [hneg, ofDecimal_sign] at hsize
    have hnegative := congrArg Binary64.negative (ofDecimal_sign false (ofDigits n.allDigits) n.scale)
    have hnan : (Binary64.ofDecimal false (ofDigits n.allDigits) n.scale).isNaN = false := by
      rw [hsize] at hfinite
      exact Json.isNaN_of_isFinite hfinite
    rw [if_pos rfl, Binary64.negate, if_neg (by rw [hnan]; exact Bool.false_ne_true), hsize, hnegative]
    rfl

/-- The numeral of a finite number is read back. -/
theorem readFloat_chars (h : n.Proper) (hx : n.number = .ok (.float x)) (hfinite : x.isFinite = true) :
    readFloat (String.ofList n.chars) = .ok x := by
  have hcolon : ':' ∉ n.body := not_mem_body h (by decide)
  obtain ⟨d, ds, hd, hcons⟩ := Numeral.body_eq_cons h
  have hpoint : d ≠ '.' := Numeral.ne_of_isDigit hd rfl
  have hchars : (Text.lower (String.ofList n.chars)).toList.filter (· != '_') = n.chars := by
    rw [lower_alphabet (Numeral.mem_chars h), filter_alphabet (Numeral.mem_chars h)]
  have hword (word : List Char) (hword : word.head? = some '.') : (n.body = word) = False := by
    refine eq_false fun heq => ?_
    rw [← heq, hcons] at hword
    exact hpoint (Option.some.inj hword)
  have hne : n.chars ≠ [] := (isWord_chars h).nonempty
  rw [readFloat, hchars]
  split
  · next hnil => exact absurd hnil hne
  · rw [signed_chars h]
    simp only [hword ".inf".toList rfl, hword ".nan".toList rfl, floatOf_body h, List.contains_iff_mem, hcolon, if_false,
      Except.map]
    rw [signed_size hx hfinite]

end Yaml

end RuleTree
