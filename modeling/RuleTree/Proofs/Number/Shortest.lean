import RuleTree.Number.Shortest
import RuleTree.Proofs.Number.Decimal
import RuleTree.Proofs.Number.Rounding

/-!
# Shortest decimals

The digits that are found for a number read back as the number: the decimal that they write lies in its interval. The search
always ends with a hit, since seventeen digits are enough for every number.
-/

namespace RuleTree.Binary64

/-! ### Intervals of naturals -/

namespace RoundingInterval

variable {i : RoundingInterval} {c : Nat} {g : Int}

/-- The lower end, the number itself and the upper end as rationals. -/
def lowest (i : RoundingInterval) : ℚ := i.low / i.den

def center (i : RoundingInterval) : ℚ := i.value / i.den

def highest (i : RoundingInterval) : ℚ := i.high / i.den

theorem contains_iff (hden : 0 < i.den) : i.contains c g = true ↔
    if i.closed then i.lowest ≤ c * 10 ^ g ∧ c * 10 ^ g ≤ i.highest
    else i.lowest < c * 10 ^ g ∧ c * 10 ^ g < i.highest := by
  have hpos : (0 : ℚ) < i.den := by exact_mod_cast hden
  unfold contains lowest highest
  by_cases hg : 0 ≤ g
  · have hpow : (10 : ℚ) ^ g = (Nat.pow 10 g.toNat : Nat) := (cast_pow_toNat 10 hg).symm
    simp only [if_pos hg, hpow]
    rw [div_le_iff₀ hpos, le_div_iff₀ hpos, div_lt_iff₀ hpos, lt_div_iff₀ hpos]
    split_ifs
    · simp only [Bool.and_eq_true, decide_eq_true_eq, mul_one]
      exact_mod_cast Iff.rfl
    · simp only [Bool.and_eq_true, decide_eq_true_eq, mul_one]
      exact_mod_cast Iff.rfl
  · have hpow : (10 : ℚ) ^ g = ((Nat.pow 10 (-g).toNat : Nat) : ℚ)⁻¹ := by
      rw [cast_pow_toNat_neg 10 hg, inv_inv, Nat.cast_ofNat]
    have hten : (0 : ℚ) < (Nat.pow 10 (-g).toNat : Nat) := by exact_mod_cast Nat.pow_pos (by decide)
    simp only [if_neg hg, hpow, ← div_eq_mul_inv]
    rw [div_le_div_iff₀ hpos hten, div_le_div_iff₀ hten hpos, div_lt_div_iff₀ hpos hten, div_lt_div_iff₀ hten hpos]
    split_ifs
    · simp only [Bool.and_eq_true, decide_eq_true_eq]
      exact_mod_cast Iff.rfl
    · simp only [Bool.and_eq_true, decide_eq_true_eq]
      exact_mod_cast Iff.rfl

theorem contains_of_onGrid? (h : i.onGrid? g = some c) : i.contains c g = true := by
  unfold onGrid? at h
  dsimp only at h
  split_ifs at h with _ hnearest hother
  all_goals cases h; assumption

/-- The search ends with a hit if its last grid has one. -/
theorem search_hit {k : Int} (more n : Nat) (hlast : (i.onGrid? (k - ((n + more : Nat) : Int))).isSome = true) :
    i.onGrid? (i.search k more n).2 = some (i.search k more n).1 := by
  induction more generalizing n with
  | zero =>
    obtain ⟨c, hc⟩ := Option.isSome_iff_exists.mp hlast
    rw [Nat.add_zero] at hc
    simp only [search, hc, Option.getD_some]
  | succ more ih =>
    rw [search]
    cases hn : i.onGrid? (k - n) with
    | some c => exact hn
    | none =>
      have hnext : n + (more + 1) = n + 1 + more := by omega
      rw [hnext] at hlast
      exact ih (n + 1) hlast

/-- On a grid finer than the interval the nearest decimal lies in it. -/
theorem contains_nearest (hden : 0 < i.den) (hlow : i.lowest < i.center - 10 ^ g / 2)
    (hhigh : i.center + 10 ^ g / 2 < i.highest) {num den : Nat} (hpos : 0 < den)
    (hquot : (num : ℚ) / den = i.center / 10 ^ g) : i.contains (divNearestEven num den) g = true := by
  have hgrid : (0 : ℚ) < 10 ^ g := by positivity
  obtain ⟨hbelow, habove⟩ := divNearestEven_near num hpos
  rw [hquot] at hbelow habove
  have hcancel : i.center / 10 ^ g * 10 ^ g = i.center := div_mul_cancel₀ _ hgrid.ne'
  have hlow : i.lowest < divNearestEven num den * 10 ^ g := by nlinarith
  have hhigh : divNearestEven num den * 10 ^ g < i.highest := by nlinarith
  rw [contains_iff hden]
  split_ifs
  · exact ⟨hlow.le, hhigh.le⟩
  · exact ⟨hlow, hhigh⟩

theorem onGrid?_isSome (hden : 0 < i.den) (hlow : i.lowest < i.center - 10 ^ g / 2)
    (hhigh : i.center + 10 ^ g / 2 < i.highest) : (i.onGrid? g).isSome = true := by
  unfold onGrid?
  by_cases hg : 0 ≤ g
  · have hquot : (i.value : ℚ) / (i.den * Nat.pow 10 g.toNat : Nat) = i.center / 10 ^ g := by
      rw [center, Nat.cast_mul, cast_pow_toNat 10 hg, Nat.cast_ofNat, div_div]
    have hpos : 0 < i.den * Nat.pow 10 g.toNat := Nat.mul_pos hden (Nat.pow_pos (by decide))
    have hcontains := contains_nearest hden hlow hhigh hpos hquot
    simp only [if_pos hg, hcontains, if_true, Option.isSome_some]
  · have hquot : ((i.value * Nat.pow 10 (-g).toNat : Nat) : ℚ) / i.den = i.center / 10 ^ g := by
      rw [center, Nat.cast_mul, cast_pow_toNat_neg 10 hg, Nat.cast_ofNat, div_eq_mul_inv _ ((10 : ℚ) ^ g)]
      ring
    have hcontains := contains_nearest hden hlow hhigh hden hquot
    simp only [if_neg hg, hcontains, if_true, Option.isSome_some]

end RoundingInterval

/-! ### The interval of a number -/

section Numbers

variable {x : Binary64} {c : Nat} {g : Int}

theorem roundingInterval_den_pos (x : Binary64) : 0 < x.roundingInterval.den := by
  unfold roundingInterval
  by_cases he : 0 ≤ x.power - 2
  · simp only [if_pos he, Nat.one_pos]
  · simp only [if_neg he, Nat.pow_eq, Nat.two_pow_pos]

theorem roundingInterval_eq (hs : 0 < x.significand) :
    x.roundingInterval.lowest = (x.significand - x.reachBelow) * 2 ^ x.power ∧
      x.roundingInterval.center = x.significand * 2 ^ x.power ∧
      x.roundingInterval.highest = (x.significand + 1 / 2) * 2 ^ x.power ∧
      x.roundingInterval.closed = (x.significand % 2 == 0) := by
  have hquarter := x.quarter_eq
  have hlow : ((4 * x.significand - (if x.fraction = 0 ∧ 1 < x.exponent then 1 else 2) : Nat) : ℚ) =
      4 * (x.significand - x.reachBelow) := by
    unfold reachBelow
    split_ifs
    · rw [Nat.cast_sub (by omega)]
      push_cast
      ring
    · rw [Nat.cast_sub (by omega)]
      push_cast
      ring
  unfold RoundingInterval.lowest RoundingInterval.center RoundingInterval.highest roundingInterval
  by_cases he : 0 ≤ x.power - 2
  · have hpow : ((Nat.pow 2 (x.power - 2).toNat : Nat) : ℚ) = 2 ^ x.power / 4 := by
      rw [cast_pow_toNat 2 he, Nat.cast_ofNat, hquarter]
    simp only [if_pos he, Nat.cast_mul, hpow, hlow, Nat.cast_one, div_one, and_true]
    refine ⟨by ring, ?_, ?_⟩
    · push_cast
      ring
    · push_cast
      ring
  · have hpow : ((Nat.pow 2 (-(x.power - 2)).toNat : Nat) : ℚ) = 4 / 2 ^ x.power := by
      rw [cast_pow_toNat_neg 2 he, Nat.cast_ofNat, hquarter, inv_div]
    simp only [if_neg he, hpow, hlow, and_true]
    refine ⟨?_, ?_, ?_⟩
    · field_simp
    · push_cast
      field_simp
    · push_cast
      field_simp
      ring

theorem covers_of_contains (hs : 0 < x.significand) (h : x.roundingInterval.contains c g = true) :
    x.Covers (c * 10 ^ g) := by
  obtain ⟨hlow, -, hhigh, hclosed⟩ := roundingInterval_eq hs
  rw [RoundingInterval.contains_iff x.roundingInterval_den_pos, hlow, hhigh, hclosed] at h
  by_cases heven : x.significand % 2 = 0
  · rw [if_pos (beq_iff_eq.mpr heven)] at h
    exact ⟨h.1, h.2, .inl heven⟩
  · rw [if_neg fun hb => heven (beq_iff_eq.mp hb)] at h
    exact ⟨h.1.le, h.2.le, .inr h⟩

/-- The number reaches the power of ten below its point. -/
theorem pow_decimalPoint_le {num den : Nat} (hnum : 0 < num) (hden : 0 < den) :
    (10 : ℚ) ^ (decimalPoint num den - 1) ≤ num / den := by
  have hposn : (0 : ℚ) < num := by exact_mod_cast hnum
  have hposd : (0 : ℚ) < den := by exact_mod_cast hden
  unfold decimalPoint
  by_cases hle : den ≤ num
  · have hquot : 0 < num / den := Nat.div_pos hle hden
    have hlen := Decimal.length_digits_pos (num / den)
    have hpow : (10 : ℚ) ^ (((Decimal.digits (num / den)).length : Int) - 1) =
        (10 ^ ((Decimal.digits (num / den)).length - 1) : Nat) := by
      rw [Nat.cast_pow, ← zpow_natCast, Nat.cast_sub (by omega)]
      norm_num
    have hfloor : (10 ^ ((Decimal.digits (num / den)).length - 1)) * den ≤ num :=
      (Nat.mul_le_mul_right den (Decimal.pow_length_digits_le hquot)).trans (Nat.div_mul_le_self num den)
    rw [if_pos hle, hpow, le_div_iff₀ hposd]
    exact_mod_cast hfloor
  · have hlen := Decimal.length_digits_pos (den / num)
    have hover : den < 10 ^ (Decimal.digits (den / num)).length * num := by
      have hfloor := Decimal.lt_pow_length_digits (den / num)
      exact (Nat.div_lt_iff_lt_mul hnum).mp hfloor
    rw [if_neg hle]
    generalize (Decimal.digits (den / num)).length = d at *
    dsimp only
    split_ifs with hexact
    · -- The number is a power of ten.
      have hpow : (10 : ℚ) ^ (2 - (d : Int) - 1) = ((10 ^ (d - 1) : Nat) : ℚ)⁻¹ := by
        rw [Nat.cast_pow, ← zpow_natCast, ← zpow_neg, Nat.cast_sub (by omega)]
        congr 1
        push_cast
        ring
      have hexact : (num : ℚ) * (10 ^ (d - 1) : Nat) = den := by exact_mod_cast hexact
      rw [hpow, ← hexact, div_mul_cancel_left₀ hposn.ne']
    · have hpow : (10 : ℚ) ^ (1 - (d : Int) - 1) = ((10 ^ d : Nat) : ℚ)⁻¹ := by
        rw [Nat.cast_pow, ← zpow_natCast, ← zpow_neg]
        congr 1
        ring
      have hten : (0 : ℚ) < (10 ^ d : Nat) := by exact_mod_cast Nat.pow_pos (by decide)
      rw [hpow, inv_eq_one_div, div_le_div_iff₀ hten hposd, one_mul]
      exact_mod_cast (Nat.mul_comm _ _ ▸ hover.le)

/-- With sixteen digits behind the first, half a step of a decimal grid is shorter than the interval to either side. -/
theorem significand_div_lt (x : Binary64) : (x.significand : ℚ) / (2 * 10 ^ (16 : Nat)) < x.reachBelow ∧
    (x.significand : ℚ) / (2 * 10 ^ (16 : Nat)) < 1 / 2 := by
  have hlt : (x.significand : ℚ) < 9007199254740992 := by exact_mod_cast x.significand_lt
  have hhalf : (x.significand : ℚ) / (2 * 10 ^ (16 : Nat)) < 1 / 2 := by
    rw [div_lt_div_iff₀ (by norm_num) (by norm_num)]
    norm_num
    linarith
  refine ⟨?_, hhalf⟩
  unfold reachBelow
  split_ifs with hboundary
  · have hsignificand : x.significand = 4503599627370496 := by
      unfold significand
      split_ifs <;> omega
    rw [hsignificand]
    norm_num
  · exact hhalf

/-- With seventeen digits the grid is finer than the interval of any number. -/
theorem seventeen_digits (hs : 0 < x.significand) :
    (x.roundingInterval.onGrid?
      (decimalPoint x.roundingInterval.value x.roundingInterval.den - 17)).isSome = true := by
  obtain ⟨hlow, hcenter, hhigh, -⟩ := roundingInterval_eq hs
  have hden := x.roundingInterval_den_pos
  have hgrid : (0 : ℚ) < 2 ^ x.power := by positivity
  have hspos : (0 : ℚ) < x.significand := by exact_mod_cast hs
  have hvalue : 0 < x.roundingInterval.value := by
    have hpos : 0 < x.roundingInterval.center := by
      rw [hcenter]
      positivity
    apply Nat.pos_of_ne_zero
    intro hzero
    simp [RoundingInterval.center, hzero] at hpos
  have hreach := pow_decimalPoint_le hvalue hden
  generalize decimalPoint x.roundingInterval.value x.roundingInterval.den = k at hreach ⊢
  have hreach : (10 : ℚ) ^ (k - 1) ≤ x.significand * 2 ^ x.power := by
    rw [← hcenter]
    exact hreach
  have hfine : (10 : ℚ) ^ (k - 17) = 10 ^ (k - 1) / 10 ^ (16 : Nat) := by
    rw [← zpow_natCast, ← zpow_sub₀ (by norm_num)]
    congr 1
    push_cast
    ring
  have hwidth := x.significand_div_lt
  have hstep : (10 : ℚ) ^ (k - 17) / 2 ≤ x.significand / (2 * 10 ^ (16 : Nat)) * 2 ^ x.power := by
    rw [hfine]
    calc (10 : ℚ) ^ (k - 1) / 10 ^ (16 : Nat) / 2 ≤ x.significand * 2 ^ x.power / 10 ^ (16 : Nat) / 2 := by gcongr
      _ = x.significand / (2 * 10 ^ (16 : Nat)) * 2 ^ x.power := by ring
  apply RoundingInterval.onGrid?_isSome hden
  · rw [hlow, hcenter]
    nlinarith [hwidth.1]
  · rw [hcenter, hhigh]
    nlinarith [hwidth.2]

end Numbers

/-! ### Reading decimals -/

section Reading

variable {x : Binary64} {n : Nat} {e : Int}

theorem decimal_bounds (hn : 0 < n) (e : Int) :
    (10 : ℚ) ^ (e + (Nat.toDigits 10 n).length - 1) ≤ n * 10 ^ e ∧ (n : ℚ) * 10 ^ e < 10 ^ (e + (Nat.toDigits 10 n).length) := by
  have hlow : 10 ^ ((Nat.toDigits 10 n).length - 1) ≤ n := Decimal.pow_length_digits_le hn
  have hhigh : n < 10 ^ (Nat.toDigits 10 n).length := Decimal.lt_pow_length_digits n
  have hlen : 0 < (Nat.toDigits 10 n).length := Decimal.length_digits_pos n
  generalize (Nat.toDigits 10 n).length = d at *
  have hten : (10 : ℚ) ≠ 0 := by norm_num
  have hgrid : (0 : ℚ) < 10 ^ e := by positivity
  constructor
  · have hpow : (10 : ℚ) ^ (e + d - 1) = (10 ^ (d - 1) : Nat) * 10 ^ e := by
      rw [Nat.cast_pow, ← zpow_natCast, Nat.cast_ofNat, ← zpow_add₀ hten, Nat.cast_sub hlen]
      congr 1
      push_cast
      ring
    rw [hpow]
    gcongr
  · have hpow : (10 : ℚ) ^ (e + d) = (10 ^ d : Nat) * 10 ^ e := by
      rw [Nat.cast_pow, ← zpow_natCast, Nat.cast_ofNat, ← zpow_add₀ hten, add_comm]
    rw [hpow]
    gcongr

/-- No decimal in the interval of a finite number is far outside the range of these. -/
theorem covers_bounds {q : ℚ} (hx : x.isFinite = true) (hs : 0 < x.significand) (h : x.Covers q) :
    q < 10 ^ (310 : Int) ∧ (10 : ℚ) ^ (-331 : Int) < q := by
  have hone : (1 : ℚ) ≤ 2 := by norm_num
  constructor
  · have hexponent : x.exponent ≠ 2047 := by simpa [isFinite] using hx
    have hpower : x.power ≤ 971 := by
      have hlt := x.exponent_lt
      unfold power
      split_ifs <;> omega
    have hsignificand : (x.significand : ℚ) ≤ 9007199254740991 := by
      exact_mod_cast (by have := x.significand_lt; omega : x.significand ≤ 9007199254740991)
    have hnum : 9007199254740992 * 2 ^ 971 < 10 ^ 310 := by decide +kernel
    have hnum : (9007199254740992 : ℚ) * 2 ^ (971 : Nat) < 10 ^ (310 : Nat) := by exact_mod_cast hnum
    calc q ≤ (x.significand + 1 / 2) * 2 ^ x.power := h.2.1
      _ ≤ 9007199254740992 * 2 ^ (971 : Int) := by
          gcongr
          linarith
      _ < 10 ^ (310 : Int) := hnum
  · have hpower := x.power_ge
    have hreach := x.reachBelow_le
    have hsignificand : (1 : ℚ) ≤ x.significand := by exact_mod_cast hs
    have hnum : 2 * 2 ^ 1074 < 10 ^ 331 := by decide +kernel
    have hnum : (2 : ℚ) * 2 ^ (1074 : Nat) < 10 ^ (331 : Nat) := by exact_mod_cast hnum
    calc (10 : ℚ) ^ (-331 : Int) = (10 ^ (331 : Nat))⁻¹ := by rw [zpow_neg, zpow_ofNat]
      _ < (2 * 2 ^ (1074 : Nat))⁻¹ := inv_strictAnti₀ (by positivity) hnum
      _ = 1 / 2 * 2 ^ (-1074 : Int) := by rw [mul_inv, one_div, zpow_neg, zpow_ofNat]
      _ ≤ (x.significand - x.reachBelow) * 2 ^ x.power := by
          have hwidth : 1 / 2 ≤ (x.significand : ℚ) - x.reachBelow := by linarith
          gcongr
      _ ≤ q := h.1

theorem ofDecimal_of_covers (hx : x.isFinite = true) (hs : 0 < x.significand) (h : x.Covers (n * 10 ^ e))
    (negative : Bool) : ofDecimal negative n e = { x with negative := negative } := by
  have hn : 0 < n := nat_pos_of_covers hs h
  obtain ⟨hlow, hhigh⟩ := decimal_bounds hn e
  obtain ⟨hupper, hlower⟩ := covers_bounds hx hs h
  have hten : (1 : ℚ) < 10 := by norm_num
  have hbelow : ¬310 < e + (Nat.toDigits 10 n).length := by
    have hlt := (zpow_lt_zpow_iff_right₀ hten).mp (hlow.trans_lt hupper)
    omega
  have habove : ¬e + (Nat.toDigits 10 n).length < -330 := by
    have hlt := (zpow_lt_zpow_iff_right₀ hten).mp (hlower.trans hhigh)
    omega
  unfold ofDecimal
  rw [if_neg (Nat.pos_iff_ne_zero.mp hn)]
  dsimp only
  rw [if_neg hbelow, if_neg habove]
  by_cases he : 0 ≤ e
  · rw [if_pos he]
    apply ofRatio_of_covers hx hs Nat.one_pos
    rw [Nat.cast_mul, cast_pow_toNat 10 he, Nat.cast_ofNat, Nat.cast_one, div_one]
    exact h
  · rw [if_neg he]
    have hden : 0 < Nat.pow 10 (-e).toNat := Nat.pow_pos (by decide)
    apply ofRatio_of_covers hx hs hden
    rw [cast_pow_toNat_neg 10 he, Nat.cast_ofNat, div_inv_eq_mul]
    exact h

end Reading

/-! ### The shortest decimal -/

/-- A row is what is left of it without the zeros at its end, and these zeros. -/
theorem exists_zeros_at_end (cs : List Char) :
    ∃ k, cs = (cs.reverse.dropWhile (· == '0')).reverse ++ List.replicate k '0' := by
  have hsplit : cs.reverse.takeWhile (· == '0') ++ cs.reverse.dropWhile (· == '0') = cs.reverse :=
    List.takeWhile_append_dropWhile
  have hzeros : cs.reverse.takeWhile (· == '0') = List.replicate (cs.reverse.takeWhile (· == '0')).length '0' := by
    rw [List.eq_replicate_iff]
    refine ⟨rfl, fun c hc => ?_⟩
    exact beq_iff_eq.mp (List.all_eq_true.mp List.all_takeWhile c hc)
  refine ⟨(cs.reverse.takeWhile (· == '0')).length, ?_⟩
  have hsplit := congrArg List.reverse hsplit
  rw [List.reverse_append, List.reverse_reverse, hzeros, List.reverse_replicate] at hsplit
  simpa using hsplit.symm

/-- What a row of digits around a point writes, and how such a row looks: its first digit is not zero. -/
structure Shortest (x : Binary64) (ds : List Char) (point : Int) : Prop where
  digits : ∀ c ∈ ds, Decimal.isDigit c = true
  head : ds.head? ≠ some '0'
  nonempty : ds ≠ []
  covers : x.Covers (Decimal.ofDigits ds * 10 ^ (point - ds.length))

/-- The shortest decimal of a number reads back as the number. -/
theorem shortest_spec {x : Binary64} (hs : 0 < x.significand) : Shortest x x.shortest.1 x.shortest.2 := by
  have hlast : (x.roundingInterval.onGrid?
      (decimalPoint x.roundingInterval.value x.roundingInterval.den - ((1 + 16 : Nat) : Int))).isSome = true :=
    seventeen_digits hs
  have hhit := RoundingInterval.search_hit 16 1 hlast
  unfold shortest
  dsimp only
  generalize x.roundingInterval.search (decimalPoint x.roundingInterval.value x.roundingInterval.den) 16 1 = found at *
  obtain ⟨c, g⟩ := found
  have hcovers : x.Covers (c * 10 ^ g) := covers_of_contains hs (RoundingInterval.contains_of_onGrid? hhit)
  have hpos : 0 < c := nat_pos_of_covers hs hcovers
  dsimp only
  -- The zeros that are left out at the end move the place of the last digit up by as many.
  obtain ⟨k, hk⟩ := exists_zeros_at_end (Decimal.digits c)
  generalize ((Decimal.digits c).reverse.dropWhile (· == '0')).reverse = ds at hk ⊢
  have hmem : ∀ d ∈ ds, d ∈ Decimal.digits c := by
    intro d hd
    rw [hk]
    exact List.mem_append_left _ hd
  have hvalue : Decimal.ofDigits ds * 10 ^ k = c := by
    rw [← Decimal.ofDigits_append_zeros, ← hk, Decimal.ofDigits_digits]
  have hnonempty : ds ≠ [] := by
    intro hnil
    rw [hnil] at hvalue
    have hzero : (0 : Nat) * 10 ^ k = c := hvalue
    omega
  have hlen : (Decimal.digits c).length = ds.length + k := by
    rw [hk, List.length_append, List.length_replicate]
  refine ⟨fun d hd => Decimal.isDigit_of_mem_digits d (hmem d hd), ?_, hnonempty, ?_⟩
  · have hhead := Decimal.head?_digits hpos
    rw [hk] at hhead
    cases ds with
    | nil => exact absurd rfl hnonempty
    | cons d ds => exact hhead
  · have hpoint : g + ((Decimal.digits c).length : Int) - ds.length = (k : Int) + g := by
      rw [hlen]
      push_cast
      ring
    rw [hpoint, zpow_add₀ (by norm_num), zpow_natCast, ← mul_assoc]
    have hcast : (Decimal.ofDigits ds : ℚ) * 10 ^ k = c := by exact_mod_cast hvalue
    rw [hcast]
    exact hcovers

end RuleTree.Binary64
