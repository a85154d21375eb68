import Mathlib.Tactic.SplitIfs
import RuleTree.Json.Reader
import RuleTree.Json.Writer
import RuleTree.Proofs.Number.Shortest

/-!
# Numerals

The text of a number is read back as the number: an integer digit by digit, a floating-point number by rounding the shortest
decimal that was written for it. The text of a number ends where no digit, point or exponent follows.
-/

namespace RuleTree.Json

open Decimal (isDigit ofDigits)

/-! ### Parts of numerals -/

section Parts

variable {ds cs rest : List Char}

/-- Whether a text that stands here ends a number before it. -/
def Stops (rest : List Char) : Prop := ∀ c ∈ rest.head?, isDigit c = false ∧ c ≠ '.' ∧ c ≠ 'e' ∧ c ≠ 'E'

theorem takeWhile_append {p : Char → Bool} (hcs : ∀ c ∈ cs, p c = true) (hrest : ∀ c ∈ rest.head?, p c = false) :
    (cs ++ rest).takeWhile p = cs := by
  rw [List.takeWhile_append_of_pos hcs]
  cases rest with
  | nil => simp
  | cons c rest => simp [hrest c rfl]

/-- The whole part of a number: digits, of which the first is zero only if it is the only one. -/
structure Whole (ds : List Char) : Prop where
  digits : ∀ c ∈ ds, isDigit c = true
  nonempty : ds ≠ []
  head : ds.head? = some '0' → ds = ['0']

theorem wholeDigits_append (h : Whole ds) (hrest : ∀ c ∈ rest.head?, isDigit c = false) : wholeDigits (ds ++ rest) = ds := by
  by_cases hzero : ds.head? = some '0'
  · rw [h.head hzero]
    rfl
  · rw [wholeDigits]
    · exact takeWhile_append h.digits hrest
    · intro tail htail
      cases ds with
      | nil => exact h.nonempty rfl
      | cons d ds =>
        rw [List.cons_append] at htail
        obtain ⟨rfl, -⟩ := List.cons.inj htail
        exact hzero rfl

/-! A number is read in four parts, one behind the other. -/

def signPart (cs : List Char) : Bool × List Char :=
  match cs with
  | '-' :: r => (true, r)
  | r => (false, r)

def fractionPart (cs : List Char) : Option (List Char) × List Char :=
  match cs with
  | '.' :: r =>
    let ds := r.takeWhile isDigit
    if ds.isEmpty then (none, cs) else (some ds, r.drop ds.length)
  | r => (none, r)

def exponentDigits (cs : List Char) : Option Bool × List Char :=
  match cs with
  | '-' :: r => (some true, r.takeWhile isDigit)
  | '+' :: r => (some false, r.takeWhile isDigit)
  | r => (none, r.takeWhile isDigit)

def exponentPart (cs : List Char) : Option (Bool × List Char) × Bool :=
  match cs with
  | e :: r =>
    if e = 'e' ∨ e = 'E' then
      let (sign, ds) := exponentDigits r
      if ds.isEmpty then (none, false) else (some (sign.getD false, ds), sign.isSome)
    else (none, false)
  | [] => (none, false)

theorem numeral?_eq (cs : List Char) : numeral? cs =
    if (wholeDigits (signPart cs).2).isEmpty then none
    else
      let whole := wholeDigits (signPart cs).2
      let (fraction, afterFraction) := fractionPart ((signPart cs).2.drop whole.length)
      let (exponent, signed) := exponentPart afterFraction
      let n : Numeral := { negative := (signPart cs).1, whole, fraction, exponent }
      some (n, n.length signed) := rfl

theorem signPart_whole (h : Whole ds) : signPart (ds ++ cs) = (false, ds ++ cs) := by
  cases ds with
  | nil => exact absurd rfl h.nonempty
  | cons d ds =>
    rw [signPart]
    intro r hr
    rw [List.cons_append] at hr
    obtain ⟨rfl, -⟩ := List.cons.inj hr
    exact absurd (h.digits '-' List.mem_cons_self) (by decide)

theorem fractionPart_none (h : ∀ c ∈ cs.head?, c ≠ '.') : fractionPart cs = (none, cs) := by
  rw [fractionPart]
  intro r hr
  subst hr
  exact h '.' rfl rfl

theorem fractionPart_some (hne : ds ≠ []) (hds : ∀ c ∈ ds, isDigit c = true) (hcs : ∀ c ∈ cs.head?, isDigit c = false) :
    fractionPart ('.' :: (ds ++ cs)) = (some ds, cs) := by
  have htake : (ds ++ cs).takeWhile isDigit = ds := takeWhile_append hds hcs
  have hnonempty : ds.isEmpty = false := List.isEmpty_eq_false_iff.mpr hne
  simp only [fractionPart, htake, hnonempty, Bool.false_eq_true, if_false, List.drop_left]

theorem exponentPart_none (h : Stops cs) : exponentPart cs = (none, false) := by
  cases cs with
  | nil => rfl
  | cons c cs =>
    obtain ⟨-, -, he, hE⟩ := h c rfl
    simp only [exponentPart, he, hE, or_self, if_false]

theorem exponentPart_some (negative : Bool) (hne : ds ≠ []) (hds : ∀ c ∈ ds, isDigit c = true)
    (hcs : ∀ c ∈ cs.head?, isDigit c = false) :
    exponentPart ('e' :: (if negative then '-' else '+') :: (ds ++ cs)) = (some (negative, ds), true) := by
  have htake : (ds ++ cs).takeWhile isDigit = ds := takeWhile_append hds hcs
  have hnonempty : ds.isEmpty = false := List.isEmpty_eq_false_iff.mpr hne
  cases negative with
  | true => simp [exponentPart, exponentDigits, htake, hnonempty]
  | false => simp [exponentPart, exponentDigits, htake, hnonempty]

/-! ### Whole numerals -/

namespace Numeral

/-- The text of a numeral. The sign of an exponent is always written. -/
def fractionChars (n : Numeral) : List Char := n.fraction.elim [] fun ds => '.' :: ds

def exponentChars (n : Numeral) : List Char :=
  n.exponent.elim [] fun e => 'e' :: (if e.1 then '-' else '+') :: e.2

def chars (n : Numeral) : List Char :=
  (if n.negative then ['-'] else []) ++ (n.whole ++ (n.fractionChars ++ n.exponentChars))

/-- A numeral whose parts are in order. -/
structure Proper (n : Numeral) : Prop where
  whole : Whole n.whole
  fraction : ∀ ds ∈ n.fraction, ds ≠ [] ∧ ∀ c ∈ ds, isDigit c = true
  exponent : ∀ e ∈ n.exponent, e.2 ≠ [] ∧ ∀ c ∈ e.2, isDigit c = true

end Numeral

variable {n : Numeral}

theorem signPart_chars (h : n.Proper) :
    signPart (n.chars ++ rest) = (n.negative, n.whole ++ (n.fractionChars ++ (n.exponentChars ++ rest))) := by
  unfold Numeral.chars
  cases n.negative with
  | true => simp [signPart]
  | false =>
    simp only [Bool.false_eq_true, if_false, List.nil_append, List.append_assoc]
    exact signPart_whole h.whole

theorem exponentPart_chars (h : n.Proper) (hrest : Stops rest) :
    exponentPart (n.exponentChars ++ rest) = (n.exponent, n.exponent.isSome) := by
  unfold Numeral.exponentChars
  cases he : n.exponent with
  | none => exact exponentPart_none hrest
  | some e =>
    obtain ⟨hne, hds⟩ := h.exponent e he
    exact exponentPart_some e.1 hne hds fun c hc => (hrest c hc).1

/-- Neither a digit nor a point stands behind the fraction. -/
theorem exponentChars_head (hrest : Stops rest) : ∀ c ∈ (n.exponentChars ++ rest).head?, isDigit c = false ∧ c ≠ '.' := by
  unfold Numeral.exponentChars
  cases n.exponent with
  | none => exact fun c hc => ⟨(hrest c hc).1, (hrest c hc).2.1⟩
  | some e =>
    intro c hc
    cases hc
    decide

theorem fractionPart_chars (h : n.Proper) (hrest : Stops rest) :
    fractionPart (n.fractionChars ++ (n.exponentChars ++ rest)) = (n.fraction, n.exponentChars ++ rest) := by
  have hhead := exponentChars_head (n := n) hrest
  unfold Numeral.fractionChars
  cases hf : n.fraction with
  | none => exact fractionPart_none fun c hc => (hhead c hc).2
  | some ds =>
    obtain ⟨hne, hds⟩ := h.fraction ds hf
    exact fractionPart_some hne hds fun c hc => (hhead c hc).1

theorem wholeDigits_chars (h : n.Proper) (hrest : Stops rest) :
    wholeDigits (n.whole ++ (n.fractionChars ++ (n.exponentChars ++ rest))) = n.whole := by
  apply wholeDigits_append h.whole
  unfold Numeral.fractionChars
  cases n.fraction with
  | none => exact fun c hc => (exponentChars_head hrest c hc).1
  | some ds =>
    intro c hc
    cases hc
    decide

theorem length_chars (n : Numeral) : n.length n.exponent.isSome = n.chars.length := by
  unfold Numeral.length Numeral.chars Numeral.fractionChars Numeral.exponentChars
  cases n.negative <;> cases n.fraction <;> cases n.exponent <;> simp <;> omega

/-- The text of a numeral is read as the numeral. -/
theorem numeral?_chars (h : n.Proper) (hrest : Stops rest) : numeral? (n.chars ++ rest) = some (n, n.chars.length) := by
  have hnonempty : n.whole.isEmpty = false := List.isEmpty_eq_false_iff.mpr h.whole.nonempty
  rw [numeral?_eq, signPart_chars h]
  simp only [wholeDigits_chars h hrest, hnonempty, Bool.false_eq_true, if_false, List.drop_left,
    fractionPart_chars h hrest, exponentPart_chars h hrest, length_chars]

end Parts

/-! ### Integers -/

section Integers

theorem whole_digits (n : Nat) : Whole (Decimal.digits n) where
  digits := Decimal.isDigit_of_mem_digits
  nonempty := Decimal.digits_ne_nil n
  head := by
    intro hzero
    by_cases hn : 0 < n
    · exact absurd hzero (Decimal.head?_digits hn)
    · have hn : n = 0 := by omega
      subst hn
      rfl

def integerNumeral (i : Int) : Numeral :=
  { negative := decide (i < 0), whole := Decimal.digits i.natAbs, fraction := none, exponent := none }

theorem integerNumeral_proper (i : Int) : (integerNumeral i).Proper where
  whole := whole_digits i.natAbs
  fraction := by simp [integerNumeral]
  exponent := by simp [integerNumeral]

theorem integer_toList (i : Int) : (Decimal.integer i).toList = (integerNumeral i).chars := by
  unfold Decimal.integer Decimal.natural
  split
  · next hi => simp [Numeral.chars, Numeral.fractionChars, Numeral.exponentChars, integerNumeral, hi]
  · next hi => simp [Numeral.chars, Numeral.fractionChars, Numeral.exponentChars, integerNumeral, hi]

/-- An integer is read back unless it has too many digits. -/
theorem integerNumeral_number {i : Int} (h : (Decimal.digits i.natAbs).length ≤ Decimal.maxDigits) :
    (integerNumeral i).number = .ok (.int i) := by
  simp only [integerNumeral, Numeral.number, if_neg (Nat.not_lt.mpr h), Decimal.ofDigits_digits, decide_eq_true_eq]
  congr 2
  split <;> omega

end Integers

/-! ### Floating-point numbers -/

section Floats

variable {x : Binary64} {n : Numeral} {ds : List Char} {point : Int}

namespace Numeral

def allDigits (n : Numeral) : List Char := n.whole ++ n.fraction.getD []

/-- The power of ten that the digits of a numeral are multiplied by. -/
def scale (n : Numeral) : Int :=
  n.exponent.elim 0 (fun e => if e.1 then -(ofDigits e.2 : Int) else ofDigits e.2) - (n.fraction.getD []).length

theorem number_of_covers (hx : x.isFinite = true) (hs : 0 < x.significand)
    (hfloat : n.fraction.isSome = true ∨ n.exponent.isSome = true) (h : x.Covers (ofDigits n.allDigits * 10 ^ n.scale)) :
    n.number = .ok (.float { x with negative := n.negative }) := by
  rw [← Binary64.ofDecimal_of_covers hx hs h]
  obtain ⟨negative, whole, fraction, exponent⟩ := n
  cases fraction with
  | none =>
    cases exponent with
    | none => simp at hfloat
    | some e =>
      obtain ⟨sign, es⟩ := e
      cases sign <;> rfl
  | some ds =>
    cases exponent with
    | none => rfl
    | some e =>
      obtain ⟨sign, es⟩ := e
      cases sign <;> rfl

end Numeral

/-- Whether a numeral writes a number, given the text behind the sign. -/
structure Writes (n : Numeral) (x : Binary64) (text : String) : Prop where
  proper : n.Proper
  chars : n.chars = (if n.negative then ['-'] else []) ++ text.toList
  number : n.number = .ok (.float { x with negative := n.negative })

/-- The digits of a shortest decimal, some zeros behind them, at a place further down by as many. -/
theorem covers_of_digits (h : Binary64.Shortest x ds point) {cs : List Char} {e : Int} (k : Nat)
    (hdigits : ofDigits cs = ofDigits ds * 10 ^ k) (he : e = point - ds.length - k) : x.Covers (ofDigits cs * 10 ^ e) := by
  have hscale : (ofDigits cs : ℚ) * 10 ^ e = ofDigits ds * 10 ^ (point - ds.length) := by
    rw [hdigits, he, zpow_sub₀ (by norm_num), zpow_natCast, Nat.cast_mul, Nat.cast_pow, Nat.cast_ofNat]
    field_simp
  rw [hscale]
  exact h.covers

/-- What begins like a shortest decimal may stand before the point. -/
theorem whole_of_shortest (h : Binary64.Shortest x ds point) {cs : List Char} (hcs : ∀ c ∈ cs, isDigit c = true)
    (hne : cs ≠ []) (hhead : cs.head? = ds.head?) : Whole cs where
  digits := hcs
  nonempty := hne
  head := by
    rw [hhead]
    exact fun hzero => absurd hzero h.head

theorem isDigit_of_mem_zeros {k : Nat} : ∀ c ∈ List.replicate k '0', isDigit c = true := by
  intro c hc
  rw [List.eq_of_mem_replicate hc]
  decide

theorem digits_zero : ∀ c ∈ ['0'], isDigit c = true := List.forall_mem_singleton.mpr rfl

theorem whole_zero : Whole ['0'] := ⟨digits_zero, List.cons_ne_nil _ _, fun _ => rfl⟩

theorem scientific_toList (l : Binary64.Layout) (ds : List Char) (point : Int) :
    (Binary64.scientific l ds point).toList =
      ds.take 1 ++ ((if ds.length ≤ 1 then none else some (ds.drop 1)).elim [] (fun cs => '.' :: cs) ++
        'e' :: (if decide (point - 1 < 0) then '-' else '+') ::
          (Decimal.digits (point - 1).natAbs).leftpad l.exponentWidth '0') := by
  have htail : (if ds.length ≤ 1 then "" else "." ++ String.ofList (ds.drop 1)).toList =
      (if ds.length ≤ 1 then none else some (ds.drop 1)).elim [] fun cs => '.' :: cs := by
    split_ifs
    · rfl
    · simp
  have hsign : (if point - 1 < 0 then "-" else "+").toList = [if decide (point - 1 < 0) then '-' else '+'] := by
    by_cases hneg : point - 1 < 0
    · simp [hneg]
    · simp [hneg]
  have hmark : "e".toList = ['e'] := rfl
  unfold Binary64.scientific
  dsimp only
  rw [String.toList_append, String.toList_append, String.toList_append, String.toList_append, htail, hsign, hmark,
    Decimal.padded, String.toList_ofList, String.toList_ofList]
  simp only [List.append_assoc, List.cons_append, List.nil_append]

section Layouts

variable (hx : x.isFinite = true) (hs : 0 < x.significand) (h : Binary64.Shortest x ds point) (negative : Bool)
include hx hs h

/-- Digits behind the point only. -/
theorem exists_below_point (hpoint : point ≤ 0) :
    ∃ n : Numeral, n.negative = negative ∧
      Writes n x ("0." ++ String.ofList (List.replicate (-point).toNat '0' ++ ds)) := by
  refine ⟨⟨negative, ['0'], some (List.replicate (-point).toNat '0' ++ ds), none⟩, rfl, ⟨whole_zero, ?_, ?_⟩, ?_, ?_⟩
  · intro cs hcs
    cases hcs
    refine ⟨by simp [h.nonempty], fun c hc => ?_⟩
    rcases List.mem_append.mp hc with hc | hc
    · exact isDigit_of_mem_zeros c hc
    · exact h.digits c hc
  · intro e he
    cases he
  · simp [Numeral.chars, Numeral.fractionChars, Numeral.exponentChars]
  · apply Numeral.number_of_covers hx hs (.inl rfl)
    apply covers_of_digits h 0
    · have hzero : Numeral.allDigits ⟨negative, ['0'], some (List.replicate (-point).toNat '0' ++ ds), none⟩ =
          List.replicate ((-point).toNat + 1) '0' ++ ds := by
        rw [List.replicate_succ]
        rfl
      rw [hzero, Decimal.ofDigits_zeros_append, pow_zero, Nat.mul_one]
    · simp [Numeral.scale]
      omega

/-- Digits before the point only, with one zero behind it. -/
theorem exists_above_point (hpoint : (ds.length : Int) ≤ point) :
    ∃ n : Numeral, n.negative = negative ∧
      Writes n x (String.ofList (ds ++ List.replicate (point.toNat - ds.length) '0') ++ ".0") := by
  refine ⟨⟨negative, ds ++ List.replicate (point.toNat - ds.length) '0', some ['0'], none⟩, rfl, ⟨?_, ?_, ?_⟩, ?_, ?_⟩
  · apply whole_of_shortest h
    · intro c hc
      rcases List.mem_append.mp hc with hc | hc
      · exact h.digits c hc
      · exact isDigit_of_mem_zeros c hc
    · simp [h.nonempty]
    · cases ds with
      | nil => exact absurd rfl h.nonempty
      | cons d ds => rfl
  · intro cs hcs
    cases hcs
    exact ⟨List.cons_ne_nil _ _, digits_zero⟩
  · intro e he
    cases he
  · simp [Numeral.chars, Numeral.fractionChars, Numeral.exponentChars]
  · apply Numeral.number_of_covers hx hs (.inl rfl)
    apply covers_of_digits h (point.toNat - ds.length + 1)
    · have hzero : Numeral.allDigits ⟨negative, ds ++ List.replicate (point.toNat - ds.length) '0', some ['0'], none⟩ =
          ds ++ List.replicate (point.toNat - ds.length + 1) '0' := by
        rw [List.replicate_succ', ← List.append_assoc]
        rfl
      rw [hzero, Decimal.ofDigits_append_zeros]
    · simp [Numeral.scale]
      omega

/-- Digits on both sides of the point. -/
theorem exists_around_point (hpoint : 0 < point) (hlen : point < ds.length) :
    ∃ n : Numeral, n.negative = negative ∧
      Writes n x (String.ofList (ds.take point.toNat) ++ "." ++ String.ofList (ds.drop point.toNat)) := by
  refine ⟨⟨negative, ds.take point.toNat, some (ds.drop point.toNat), none⟩, rfl, ⟨?_, ?_, ?_⟩, ?_, ?_⟩
  · apply whole_of_shortest h
    · exact fun c hc => h.digits c (List.mem_of_mem_take hc)
    · simp [h.nonempty]
      omega
    · rw [List.head?_take, if_neg (by omega)]
  · intro cs hcs
    cases hcs
    refine ⟨?_, fun c hc => h.digits c (List.mem_of_mem_drop hc)⟩
    simp
    omega
  · intro e he
    cases he
  · simp [Numeral.chars, Numeral.fractionChars, Numeral.exponentChars]
  · apply Numeral.number_of_covers hx hs (.inl rfl)
    apply covers_of_digits h 0
    · simp [Numeral.allDigits]
    · simp [Numeral.scale]
      omega

theorem exists_positional :
    ∃ n : Numeral, n.negative = negative ∧ Writes n x (Binary64.positional ds point) := by
  unfold Binary64.positional
  by_cases hbelow : point ≤ 0
  · rw [if_pos hbelow]
    exact exists_below_point hx hs h negative hbelow
  · rw [if_neg hbelow]
    dsimp only
    by_cases habove : ds.length ≤ point.toNat
    · rw [if_pos habove]
      exact exists_above_point hx hs h negative (by omega)
    · rw [if_neg habove]
      exact exists_around_point hx hs h negative (by omega) (by omega)

/-- One digit before the point, and an exponent. -/
theorem exists_scientific (l : Binary64.Layout) :
    ∃ n : Numeral, n.negative = negative ∧ Writes n x (Binary64.scientific l ds point) := by
  have hpositive := List.length_pos_of_ne_nil h.nonempty
  let es := (Decimal.digits (point - 1).natAbs).leftpad l.exponentWidth '0'
  have hes : es = List.replicate (l.exponentWidth - (Decimal.digits (point - 1).natAbs).length) '0' ++
      Decimal.digits (point - 1).natAbs := rfl
  have hvalue : ofDigits es = (point - 1).natAbs := by
    rw [hes, Decimal.ofDigits_zeros_append, Decimal.ofDigits_digits]
  refine ⟨⟨negative, ds.take 1, if ds.length ≤ 1 then none else some (ds.drop 1), some (decide (point - 1 < 0), es)⟩,
    rfl, ⟨?_, ?_, ?_⟩, ?_, ?_⟩
  · apply whole_of_shortest h
    · exact fun c hc => h.digits c (List.mem_of_mem_take hc)
    · simp [h.nonempty]
    · rw [List.head?_take, if_neg (by omega)]
  · intro cs hcs
    dsimp only at hcs
    split_ifs at hcs with hone
    · cases hcs
    · cases hcs
      refine ⟨fun hnil => hone (List.drop_eq_nil_iff.mp hnil), fun c hc => h.digits c (List.mem_of_mem_drop hc)⟩
  · intro e he
    cases he
    refine ⟨by simp [hes, Decimal.digits_ne_nil], fun c hc => ?_⟩
    rcases List.mem_append.mp hc with hc | hc
    · exact isDigit_of_mem_zeros c hc
    · exact Decimal.isDigit_of_mem_digits c hc
  · rw [scientific_toList]
    simp only [Numeral.chars, Numeral.fractionChars, Numeral.exponentChars, Option.elim_some, es]
  · apply Numeral.number_of_covers hx hs (.inr rfl)
    apply covers_of_digits h 0
    · by_cases hone : ds.length ≤ 1
      · have htake : ds.take 1 = ds := List.take_of_length_le hone
        simp [Numeral.allDigits, hone, htake]
      · simp only [Numeral.allDigits, if_neg hone, Option.getD_some, List.take_append_drop, pow_zero, Nat.mul_one]
    · have hlen : (if ds.length ≤ 1 then none else some (ds.drop 1)).getD [] = ds.drop 1 := by
        split_ifs with hone
        · rw [List.drop_of_length_le hone]
          rfl
        · rfl
      simp only [Numeral.scale, hlen, Option.elim_some, hvalue, decide_eq_true_eq, List.length_drop]
      split_ifs <;> omega

end Layouts

theorem of_writes {text : String} (h : Writes n x text) (hsign : n.negative = x.negative) :
    n.Proper ∧ ((if x.negative then "-" else "") ++ text).toList = n.chars ∧ n.number = .ok (.float x) := by
  obtain ⟨hproper, hchars, hnumber⟩ := h
  rw [hsign] at hchars hnumber
  refine ⟨hproper, ?_, hnumber⟩
  rw [hchars, String.toList_append]
  cases x.negative with
  | true => rfl
  | false => rfl

theorem writes_zero (negative : Bool) :
    ∃ n : Numeral, n.negative = negative ∧ Writes n (Binary64.zero negative) "0.0" := by
  refine ⟨⟨negative, ['0'], some ['0'], none⟩, rfl, ⟨whole_zero, ?_, ?_⟩, ?_, rfl⟩
  · intro cs hcs
    cases hcs
    exact ⟨List.cons_ne_nil _ _, digits_zero⟩
  · intro e he
    cases he
  · simp [Numeral.chars, Numeral.fractionChars, Numeral.exponentChars]

theorem isNaN_of_isFinite (h : x.isFinite = true) : x.isNaN = false := by
  have hexponent : x.exponent ≠ 2047 := by simpa [Binary64.isFinite] using h
  simp [Binary64.isNaN, hexponent]

theorem eq_zero_of_isZero (h : x.isZero = true) : x = Binary64.zero x.negative := by
  obtain ⟨negative, exponent, fraction, _, _⟩ := x
  simp only [Binary64.isZero, Bool.and_eq_true, beq_iff_eq] at h
  obtain ⟨rfl, rfl⟩ := h
  rfl

/-- The text of a finite number is that of a numeral which is read as the number. -/
theorem exists_numeral (hx : x.isFinite = true) :
    ∃ n : Numeral, n.Proper ∧ (x.format layout).toList = n.chars ∧ n.number = .ok (.float x) := by
  have hnan := isNaN_of_isFinite hx
  unfold Binary64.format
  simp only [hnan, hx, Bool.not_true, Bool.false_eq_true, if_false]
  cases hzero : x.isZero with
  | true =>
    obtain ⟨n, hsign, hwrites⟩ := writes_zero x.negative
    rw [← eq_zero_of_isZero hzero] at hwrites
    exact ⟨n, of_writes hwrites hsign⟩
  | false =>
    have hs : 0 < x.significand := by
      simp only [Binary64.isZero, Bool.and_eq_false_iff, beq_eq_false_iff_ne] at hzero
      unfold Binary64.significand
      split_ifs <;> omega
    have hspec := Binary64.shortest_spec hs
    simp only [Bool.false_eq_true, if_false]
    by_cases hpoint : layout.leastPoint ≤ x.shortest.2 ∧ x.shortest.2 ≤ layout.greatestPoint
    · obtain ⟨n, hsign, hwrites⟩ := exists_positional hx hs hspec x.negative
      rw [if_pos hpoint]
      exact ⟨n, of_writes hwrites hsign⟩
    · obtain ⟨n, hsign, hwrites⟩ := exists_scientific hx hs hspec x.negative layout
      rw [if_neg hpoint]
      exact ⟨n, of_writes hwrites hsign⟩

end Floats

/-! ### Plain values -/

section Plain

variable {n : Numeral} {rest : List Char}

/-- The words for values that are no numbers, and for the numbers beyond all others, look like no numeral. -/
theorem find?_words_chars (h : n.Proper) (rest : List Char) :
    (words.find? fun w => w.1.toList.isPrefixOf (n.chars ++ rest)) = none := by
  cases hwhole : n.whole with
  | nil => exact absurd hwhole h.whole.nonempty
  | cons d ds =>
    have hd : isDigit d = true := h.whole.digits d (by rw [hwhole]; exact List.mem_cons_self)
    have hne : ∀ c, isDigit c = false → c ≠ d := by
      intro c hc heq
      rw [heq, hd] at hc
      cases hc
    have hn := hne 'n' (by decide)
    have ht := hne 't' (by decide)
    have hf := hne 'f' (by decide)
    have hN := hne 'N' (by decide)
    have hI := hne 'I' (by decide)
    have hminus := hne '-' (by decide)
    cases hneg : n.negative with
    | true => simp [Numeral.chars, hneg, hwhole, words, List.isPrefixOf, hI]
    | false => simp [Numeral.chars, hneg, hwhole, words, List.isPrefixOf, hn, ht, hf, hN, hI, hminus]

theorem readPlain_chars (h : n.Proper) {m : Number} (hm : n.number = .ok m) (hrest : Stops rest) (position : Nat) :
    ∃ next, readPlain ⟨n.chars ++ rest, position⟩ = .ok (.number m, ⟨rest, next⟩) := by
  refine ⟨position + n.chars.length, ?_⟩
  unfold readPlain
  simp only [find?_words_chars h rest, numeral?_chars h hrest, hm, Cursor.skip, List.drop_left]
  rfl

theorem readPlain_word {word : String} {v : Value} (h : (word, v) ∈ words) (position : Nat) :
    ∃ next, readPlain ⟨word.toList ++ rest, position⟩ = .ok (v, ⟨rest, next⟩) := by
  refine ⟨position + word.length, ?_⟩
  have hfind : (words.find? fun w => w.1.toList.isPrefixOf (word.toList ++ rest)) = some (word, v) := by
    simp only [words, List.mem_cons, List.not_mem_nil, or_false, Prod.mk.injEq] at h
    rcases h with ⟨rfl, rfl⟩ | ⟨rfl, rfl⟩ | ⟨rfl, rfl⟩ | ⟨rfl, rfl⟩ | ⟨rfl, rfl⟩ | ⟨rfl, rfl⟩
    all_goals rfl
  unfold readPlain
  simp only [hfind, Cursor.skip]
  rw [← String.length_toList, List.drop_left]

end Plain

end RuleTree.Json
