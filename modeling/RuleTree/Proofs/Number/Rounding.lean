import Mathlib.Algebra.Order.Field.Power
import Mathlib.Tactic.FieldSimp
import Mathlib.Tactic.Linarith
import Mathlib.Tactic.NormNum
import Mathlib.Tactic.Positivity
import Mathlib.Tactic.Ring
import RuleTree.Number.Binary64

/-!
# Rounding

A quotient is rounded to the floating-point number in whose interval it lies. The interval of a number reaches half a step to
either side, but only a quarter of a step below a power of two, where the grid gets finer. Its ends belong to it if the
significand is even.
-/

namespace RuleTree.Binary64

theorem cast_pow_toNat (b : Nat) {e : Int} (he : 0 ≤ e) : ((Nat.pow b e.toNat : Nat) : ℚ) = (b : ℚ) ^ e := by
  rw [Nat.pow_eq, Nat.cast_pow, ← zpow_natCast, Int.toNat_of_nonneg he]

theorem cast_pow_toNat_neg (b : Nat) {e : Int} (he : ¬0 ≤ e) : ((Nat.pow b (-e).toNat : Nat) : ℚ) = ((b : ℚ) ^ e)⁻¹ := by
  rw [cast_pow_toNat b (by omega), zpow_neg]

/-! ### Nearest naturals -/

section Nearest

variable {num den k : Nat}

theorem divNearestEven_bounds (num : Nat) (hden : 0 < den) :
    2 * num ≤ (2 * divNearestEven num den + 1) * den ∧ 2 * divNearestEven num den * den ≤ 2 * num + den := by
  have hsplit : den * (num / den) + num % den = num := Nat.div_add_mod num den
  have hrest : num % den < den := Nat.mod_lt num hden
  unfold divNearestEven
  generalize num / den = q at *
  generalize num % den = r at *
  have hlow : (2 * q + 1) * den = 2 * (den * q) + den := by ring
  have hlow' : 2 * q * den = 2 * (den * q) := by ring
  have hhigh : (2 * (q + 1) + 1) * den = 2 * (den * q) + 3 * den := by ring
  have hhigh' : 2 * (q + 1) * den = 2 * (den * q) + 2 * den := by ring
  dsimp only
  split_ifs <;> omega

theorem divNearestEven_near (num : Nat) (hden : 0 < den) :
    (num : ℚ) / den - 1 / 2 ≤ divNearestEven num den ∧ (divNearestEven num den : ℚ) ≤ num / den + 1 / 2 := by
  have hpos : (0 : ℚ) < den := by exact_mod_cast hden
  obtain ⟨hlow, hhigh⟩ := divNearestEven_bounds num hden
  generalize divNearestEven num den = k at *
  have hlow : (2 * num : ℚ) ≤ (2 * k + 1) * den := by exact_mod_cast hlow
  have hhigh : (2 * k * den : ℚ) ≤ 2 * num + den := by exact_mod_cast hhigh
  have hquot : (num : ℚ) / den * den = num := div_mul_cancel₀ _ hpos.ne'
  constructor
  · by_contra hlt
    nlinarith
  · by_contra hlt
    nlinarith

/-- A natural at most half a unit away is the nearest one, if it is closer than that or even. -/
theorem divNearestEven_eq (hden : 0 < den) (hhigh : 2 * num ≤ (2 * k + 1) * den) (hlow : 2 * k * den ≤ 2 * num + den)
    (hties : k % 2 = 0 ∨ 2 * num < (2 * k + 1) * den ∧ 2 * k * den < 2 * num + den) : divNearestEven num den = k := by
  have hsplit : den * (num / den) + num % den = num := Nat.div_add_mod num den
  have hrest : num % den < den := Nat.mod_lt num hden
  unfold divNearestEven
  generalize num / den = q at *
  generalize num % den = r at *
  have hk : (2 * k + 1) * den = 2 * (den * k) + den := by ring
  have hk' : 2 * k * den = 2 * (den * k) := by ring
  have hle : q ≤ k := by
    by_contra hlt
    have hstep : den * (k + 1) ≤ den * q := Nat.mul_le_mul_left den (by omega)
    rw [Nat.mul_succ] at hstep
    omega
  have hge : k ≤ q + 1 := by
    by_contra hlt
    have hstep : den * (q + 2) ≤ den * k := Nat.mul_le_mul_left den (by omega)
    have htwo : den * (q + 2) = den * q + 2 * den := by ring
    omega
  dsimp only
  rcases (by omega : k = q ∨ k = q + 1) with rfl | rfl
  · split_ifs <;> omega
  · have hsucc : den * (q + 1) = den * q + den := Nat.mul_succ den q
    split_ifs <;> omega

theorem divNearestEven_eq_of_near (hden : 0 < den) (hlow : (k : ℚ) - 1 / 2 ≤ num / den)
    (hhigh : (num : ℚ) / den ≤ k + 1 / 2) (hties : k % 2 = 0 ∨ (k : ℚ) - 1 / 2 < num / den ∧ (num : ℚ) / den < k + 1 / 2) :
    divNearestEven num den = k := by
  have hpos : (0 : ℚ) < den := by exact_mod_cast hden
  rw [div_le_iff₀ hpos] at hhigh
  rw [le_div_iff₀ hpos] at hlow
  apply divNearestEven_eq hden
  · have h : (2 * num : ℚ) ≤ (2 * k + 1) * den := by linarith
    exact_mod_cast h
  · have h : (2 * k * den : ℚ) ≤ 2 * num + den := by linarith
    exact_mod_cast h
  · rcases hties with heven | ⟨hlow, hhigh⟩
    · exact .inl heven
    · rw [div_lt_iff₀ hpos] at hhigh
      rw [lt_div_iff₀ hpos] at hlow
      have h₁ : (2 * num : ℚ) < (2 * k + 1) * den := by linarith
      have h₂ : (2 * k * den : ℚ) < 2 * num + den := by linarith
      exact .inr ⟨by exact_mod_cast h₁, by exact_mod_cast h₂⟩

end Nearest

/-! ### Grids -/

section Grids

variable {num den : Nat}

theorem overPowerOfTwo_den_pos (num : Nat) (hden : 0 < den) (e : Int) : 0 < (overPowerOfTwo num den e).2 := by
  unfold overPowerOfTwo
  split
  · exact Nat.mul_pos hden (Nat.pow_pos Nat.two_pos)
  · exact hden

theorem overPowerOfTwo_eq (num den : Nat) (e : Int) :
    ((overPowerOfTwo num den e).1 : ℚ) / (overPowerOfTwo num den e).2 = num / den / 2 ^ e := by
  unfold overPowerOfTwo
  split
  · next he =>
    rw [Nat.cast_mul, cast_pow_toNat 2 he, Nat.cast_ofNat, div_div]
  · next he =>
    rw [Nat.cast_mul, cast_pow_toNat_neg 2 he, Nat.cast_ofNat, div_eq_mul_inv _ ((2 : ℚ) ^ e)]
    ring

theorem two_pow_log2_le {n : Nat} (hn : 0 < n) : (2 : ℚ) ^ (n.log2 : Int) ≤ n ∧ (n : ℚ) < 2 ^ ((n.log2 : Int) + 1) := by
  have hlow : 2 ^ n.log2 ≤ n := Nat.log2_self_le (by omega)
  have hhigh : n < 2 ^ (n.log2 + 1) := Nat.lt_log2_self
  constructor
  · rw [zpow_natCast]
    exact_mod_cast hlow
  · have hcast : (2 : ℚ) ^ ((n.log2 : Int) + 1) = (2 ^ (n.log2 + 1) : Nat) := by
      rw [zpow_add_one₀ (by norm_num), zpow_natCast]
      push_cast
      ring
    rw [hcast]
    exact_mod_cast hhigh

/-- The quotient of two naturals between powers of two. -/
theorem quotient_bounds (hnum : 0 < num) (hden : 0 < den) :
    (2 : ℚ) ^ ((num.log2 : Int) - den.log2 - 1) < num / den ∧ (num : ℚ) / den < 2 ^ ((num.log2 : Int) - den.log2 + 1) := by
  obtain ⟨hn, hn'⟩ := two_pow_log2_le hnum
  obtain ⟨hd, hd'⟩ := two_pow_log2_le hden
  have hpos : (0 : ℚ) < den := by exact_mod_cast hden
  have htwo : (2 : ℚ) ≠ 0 := by norm_num
  constructor
  · rw [lt_div_iff₀ hpos]
    calc (2 : ℚ) ^ ((num.log2 : Int) - den.log2 - 1) * den
        < 2 ^ ((num.log2 : Int) - den.log2 - 1) * 2 ^ ((den.log2 : Int) + 1) := by gcongr
      _ = 2 ^ (num.log2 : Int) := by
          rw [← zpow_add₀ htwo]
          congr 1
          ring
      _ ≤ num := hn
  · rw [div_lt_iff₀ hpos]
    calc (num : ℚ) < 2 ^ ((num.log2 : Int) + 1) := hn'
      _ = 2 ^ ((num.log2 : Int) - den.log2 + 1) * 2 ^ (den.log2 : Int) := by
          rw [← zpow_add₀ htwo]
          congr 1
          ring
      _ ≤ 2 ^ ((num.log2 : Int) - den.log2 + 1) * den := by gcongr

theorem two_pow_mul_two_pow (n : Nat) (e : Int) : (2 : ℚ) ^ n * 2 ^ e = 2 ^ ((n : Int) + e) := by
  rw [zpow_add₀ (by norm_num), zpow_natCast]

/-- Whether a quotient has at most 52 bits before the point of a grid. -/
theorem quotient_lt_iff (num : Nat) (hden : 0 < den) (e : Int) :
    (overPowerOfTwo num den e).1 / (overPowerOfTwo num den e).2 < 4503599627370496 ↔ (num : ℚ) / den < 2 ^ (52 + e) := by
  have hpos : 0 < (overPowerOfTwo num den e).2 := overPowerOfTwo_den_pos num hden e
  have hposq : (0 : ℚ) < (overPowerOfTwo num den e).2 := by exact_mod_cast hpos
  have hgrid : (0 : ℚ) < 2 ^ e := by positivity
  have hcast : ((overPowerOfTwo num den e).1 : ℚ) / (overPowerOfTwo num den e).2 < 4503599627370496 ↔
      (overPowerOfTwo num den e).1 < 4503599627370496 * (overPowerOfTwo num den e).2 := by
    rw [div_lt_iff₀ hposq]
    exact_mod_cast Iff.rfl
  have hscale : (4503599627370496 : ℚ) * 2 ^ e = 2 ^ (52 + e) := by
    rw [zpow_add₀ (by norm_num)]
    norm_num
  rw [Nat.div_lt_iff_lt_mul hpos, ← hcast, overPowerOfTwo_eq, div_lt_iff₀ hgrid, hscale]

/-- On its grid a quotient has at most 53 bits before the point, and no fewer unless the grid is that of the smallest
numbers. -/
theorem gridExponent_bounds (hnum : 0 < num) (hden : 0 < den) :
    -1074 ≤ gridExponent num den ∧ (num : ℚ) / den < 2 ^ (53 : Nat) * 2 ^ gridExponent num den ∧
      (gridExponent num den = -1074 ∨ 2 ^ (52 : Nat) * 2 ^ gridExponent num den ≤ (num : ℚ) / den) := by
  obtain ⟨hlow, hhigh⟩ := quotient_bounds hnum hden
  have hone : (1 : ℚ) ≤ 2 := by norm_num
  unfold gridExponent
  simp only [two_pow_mul_two_pow]
  -- The first guess is exact or one too large.
  generalize he : max (-1074) ((num.log2 : Int) - den.log2 - 52) = e
  have hguess : -1074 ≤ e ∧ (num.log2 : Int) - den.log2 - 52 ≤ e := by omega
  have hbelow : (num : ℚ) / den < 2 ^ (53 + e) := by
    refine hhigh.trans_le (zpow_le_zpow_right₀ hone ?_)
    omega
  by_cases hlt : (num : ℚ) / den < 2 ^ (52 + e)
  · rw [if_pos ((quotient_lt_iff num hden e).mpr hlt)]
    by_cases hleast : e = -1074
    · have hmax : max (-1074) (e - 1) = -1074 := by omega
      rw [hmax]
      rw [hleast] at hbelow
      exact ⟨le_rfl, hbelow, .inl rfl⟩
    · have hmax : max (-1074) (e - 1) = e - 1 := by omega
      have hguess : e = (num.log2 : Int) - den.log2 - 52 := by omega
      have hupper : ((53 : Nat) : Int) + (e - 1) = 52 + e := by omega
      have hlower : ((52 : Nat) : Int) + (e - 1) = (num.log2 : Int) - den.log2 - 1 := by omega
      rw [hmax, hupper, hlower]
      exact ⟨by omega, hlt, .inr hlow.le⟩
  · rw [if_neg fun h => hlt ((quotient_lt_iff num hden e).mp h)]
    exact ⟨hguess.1, hbelow, .inr (not_lt.mp hlt)⟩

end Grids

/-! ### Intervals -/

section Intervals

variable {x : Binary64} {num den : Nat} {q : ℚ}

/-- How far the interval of a number reaches down, in steps of its grid. -/
def reachBelow (x : Binary64) : ℚ := if x.fraction = 0 ∧ 1 < x.exponent then 1 / 4 else 1 / 2

/-- Whether a rational lies in the interval of a number, its sign apart. -/
def Covers (x : Binary64) (q : ℚ) : Prop :=
  (x.significand - x.reachBelow) * 2 ^ x.power ≤ q ∧ q ≤ (x.significand + 1 / 2) * 2 ^ x.power ∧
    (x.significand % 2 = 0 ∨
      (x.significand - x.reachBelow) * 2 ^ x.power < q ∧ q < (x.significand + 1 / 2) * 2 ^ x.power)

theorem reachBelow_le (x : Binary64) : x.reachBelow ≤ 1 / 2 := by
  unfold reachBelow
  split_ifs <;> norm_num

theorem quarter_eq (x : Binary64) : (2 : ℚ) ^ (x.power - 2) = 2 ^ x.power / 4 := by
  rw [zpow_sub₀ (by norm_num)]
  norm_num

theorem power_ge (x : Binary64) : -1074 ≤ x.power := by
  unfold power
  split_ifs <;> omega

theorem significand_lt (x : Binary64) : x.significand < 9007199254740992 := by
  have h := x.fraction_lt
  unfold significand
  split_ifs <;> omega

/-- Only on the grid of the smallest numbers has a significand fewer than 53 bits. -/
theorem significand_ge (h : -1074 < x.power) : 4503599627370496 ≤ x.significand := by
  unfold power at h
  unfold significand
  split_ifs at h ⊢ <;> omega

/-- Below a power of two the interval reaches only half as far down. -/
theorem reachBelow_eq (hp : -1074 < x.power) (hs : x.significand ≤ 4503599627370496) :
    x.significand = 4503599627370496 ∧ x.reachBelow = 1 / 4 := by
  have hge := significand_ge hp
  have hboundary : x.fraction = 0 ∧ 1 < x.exponent := by
    unfold power at hp
    unfold significand at hs hge
    split_ifs at hp hs hge <;> omega
  exact ⟨by omega, if_pos hboundary⟩

theorem ofCode_significand (hx : x.isFinite = true) (negative : Bool) :
    ofCode negative ((x.power + 1074).toNat * 4503599627370496 + x.significand) = { x with negative := negative } := by
  have hexponent : x.exponent ≠ 2047 := by simpa [isFinite] using hx
  have hcode : (x.power + 1074).toNat * 4503599627370496 + x.significand =
      x.exponent * 4503599627370496 + x.fraction := by
    by_cases h : x.exponent = 0
    · simp only [power, significand, h, if_true]
      omega
    · simp only [power, significand, if_neg h]
      omega
  have hfraction := x.fraction_lt
  have hlt := x.exponent_lt
  have hfields : x.exponent * 4503599627370496 + x.fraction < 9218868437227405312 := by omega
  have hdiv : (x.exponent * 4503599627370496 + x.fraction) / 4503599627370496 = x.exponent := by omega
  have hmod : (x.exponent * 4503599627370496 + x.fraction) % 4503599627370496 = x.fraction := by omega
  rw [hcode, ofCode, dif_pos hfields]
  simp only [hdiv, hmod]

theorem pos_of_covers (hs : 0 < x.significand) (h : x.Covers q) : 0 < q := by
  have hstep : (1 : ℚ) ≤ x.significand := by exact_mod_cast hs
  have hreach := x.reachBelow_le
  refine lt_of_lt_of_le ?_ h.1
  apply mul_pos
  · linarith
  · positivity

theorem nat_pos_of_covers {n : Nat} (hs : 0 < x.significand) (h : x.Covers (n * q)) : 0 < n := by
  have hpos := pos_of_covers hs h
  apply Nat.pos_of_ne_zero
  intro hzero
  simp [hzero] at hpos

theorem ofRatio_eq_of_grid {negative : Bool} {k : Nat} (hnum : 0 < num)
    (hround : divNearestEven (overPowerOfTwo num den (gridExponent num den)).1
      (overPowerOfTwo num den (gridExponent num den)).2 = k) :
    ofRatio negative num den = ofCode negative ((gridExponent num den + 1074).toNat * 4503599627370496 + k) := by
  rw [ofRatio, if_neg (Nat.pos_iff_ne_zero.mp hnum)]
  simp only [hround]

/-! The grid of a quotient in the interval of a number is that of the number, or, below a power of two, the next finer one. -/

/-- A quotient on a finer grid lies below the number. -/
theorem quotient_lt_of_finer (hnum : 0 < num) (hden : 0 < den) (hfiner : gridExponent num den < x.power) :
    (num : ℚ) / den < 2 ^ (52 : Nat) * 2 ^ x.power := by
  obtain ⟨-, hupper, -⟩ := gridExponent_bounds hnum hden
  have hcoarse : (2 : ℚ) ^ gridExponent num den ≤ 2 ^ (x.power - 1) := zpow_le_zpow_right₀ (by norm_num) (by omega)
  calc (num : ℚ) / den < 2 ^ (53 : Nat) * 2 ^ gridExponent num den := hupper
    _ ≤ 2 ^ (53 : Nat) * 2 ^ (x.power - 1) := by gcongr
    _ = 2 ^ (52 : Nat) * 2 ^ x.power := by
        rw [zpow_sub_one₀ (by norm_num)]
        ring

section Covered

variable (hnum : 0 < num) (hden : 0 < den) (h : x.Covers ((num : ℚ) / den))
include hnum hden h

theorem gridExponent_le_power : gridExponent num den ≤ x.power := by
  by_contra hgt
  obtain ⟨-, -, hlower⟩ := gridExponent_bounds hnum hden
  have hcoarse : (2 : ℚ) ^ (x.power + 1) ≤ 2 ^ gridExponent num den := zpow_le_zpow_right₀ (by norm_num) (by omega)
  have hdouble : (2 : ℚ) ^ (x.power + 1) = 2 ^ x.power * 2 := zpow_add_one₀ (by norm_num) _
  have hp := x.power_ge
  have hover : (2 : ℚ) ^ (52 : Nat) * 2 ^ gridExponent num den ≤ num / den := hlower.resolve_left (by omega)
  have hlt : (x.significand : ℚ) ≤ 9007199254740991 := by
    have hs := x.significand_lt
    exact_mod_cast (by omega : x.significand ≤ 9007199254740991)
  have hgrid : (0 : ℚ) < 2 ^ x.power := by positivity
  have hstep : (2 : ℚ) ^ (52 : Nat) * (2 ^ x.power * 2) ≤ 2 ^ (52 : Nat) * 2 ^ gridExponent num den := by
    rw [← hdouble]
    gcongr
  have htop : ((x.significand : ℚ) + 1 / 2) * 2 ^ x.power ≤ (9007199254740991 + 1 / 2) * 2 ^ x.power := by gcongr
  have hhigh := h.2.1
  norm_num at hstep hover htop hhigh
  linarith

/-- If the grid is finer, the number is a power of two and the quotient lies little below it. -/
theorem boundary_of_finer (hfiner : gridExponent num den < x.power) :
    x.significand = 4503599627370496 ∧ (4503599627370496 - 1 / 4) * 2 ^ x.power ≤ (num : ℚ) / den := by
  have hgrid : (0 : ℚ) < 2 ^ x.power := by positivity
  have hreach := x.reachBelow_le
  have hleast := (gridExponent_bounds hnum hden).1
  have hsmall : (x.significand : ℚ) < 4503599627370497 := by
    have hstep := lt_of_le_of_lt h.1 (quotient_lt_of_finer hnum hden hfiner)
    have hstep := lt_of_mul_lt_mul_right hstep hgrid.le
    norm_num at hstep
    linarith
  have hsmall : x.significand < 4503599627370497 := by exact_mod_cast hsmall
  obtain ⟨hboundary, hquarter⟩ := reachBelow_eq (by omega) (by omega : x.significand ≤ 4503599627370496)
  have hlow := h.1
  rw [hboundary, hquarter] at hlow
  exact ⟨hboundary, by exact_mod_cast hlow⟩

theorem gridExponent_of_finer (hfiner : gridExponent num den < x.power) : gridExponent num den = x.power - 1 := by
  by_contra hne
  obtain ⟨-, hupper, -⟩ := gridExponent_bounds hnum hden
  obtain ⟨-, hlow⟩ := boundary_of_finer hnum hden h hfiner
  have hgrid : (0 : ℚ) < 2 ^ x.power := by positivity
  have hfine : (2 : ℚ) ^ gridExponent num den ≤ 2 ^ (x.power - 2) := zpow_le_zpow_right₀ (by norm_num) (by omega)
  have hstep : (2 : ℚ) ^ (53 : Nat) * 2 ^ gridExponent num den ≤ 2 ^ (53 : Nat) * (2 ^ x.power / 4) := by
    rw [← quarter_eq]
    gcongr
  norm_num at hstep hupper
  linarith

theorem round_of_finer (hfiner : gridExponent num den < x.power) :
    divNearestEven (overPowerOfTwo num den (x.power - 1)).1 (overPowerOfTwo num den (x.power - 1)).2 = 9007199254740992 := by
  obtain ⟨-, hlow⟩ := boundary_of_finer hnum hden h hfiner
  have hbelow := quotient_lt_of_finer hnum hden hfiner
  have hhalf : (2 : ℚ) ^ (x.power - 1) = 2 ^ x.power / 2 := by rw [zpow_sub_one₀ (by norm_num), div_eq_mul_inv]
  have hquot := overPowerOfTwo_eq num den (x.power - 1)
  apply divNearestEven_eq_of_near (overPowerOfTwo_den_pos num hden _)
  · rw [hquot, hhalf, le_div_iff₀ (by positivity)]
    push_cast
    linarith
  · rw [hquot, hhalf, div_le_iff₀ (by positivity)]
    norm_num at hbelow ⊢
    linarith
  · exact .inl (by decide)

end Covered

theorem round_of_same (hden : 0 < den) (h : x.Covers ((num : ℚ) / den)) :
    divNearestEven (overPowerOfTwo num den x.power).1 (overPowerOfTwo num den x.power).2 = x.significand := by
  have hgrid : (0 : ℚ) < 2 ^ x.power := by positivity
  have hreach := x.reachBelow_le
  have hquot := overPowerOfTwo_eq num den x.power
  obtain ⟨hlow, hhigh, hties⟩ := h
  apply divNearestEven_eq_of_near (overPowerOfTwo_den_pos num hden _)
  · rw [hquot, le_div_iff₀ hgrid]
    nlinarith
  · rw [hquot, div_le_iff₀ hgrid]
    exact hhigh
  · refine hties.imp id fun hstrict => ?_
    rw [hquot, lt_div_iff₀ hgrid, div_lt_iff₀ hgrid]
    exact ⟨by nlinarith [hstrict.1], hstrict.2⟩

/-- What lies in the interval of a number is rounded to it. -/
theorem ofRatio_of_covers (hx : x.isFinite = true) (hs : 0 < x.significand) (hden : 0 < den)
    (h : x.Covers ((num : ℚ) / den)) (negative : Bool) : ofRatio negative num den = { x with negative := negative } := by
  have hnum : 0 < num := by
    rw [div_eq_mul_inv] at h
    exact nat_pos_of_covers hs h
  rw [← ofCode_significand hx]
  rcases (gridExponent_le_power hnum hden h).eq_or_lt with heq | hfiner
  · have hround := round_of_same hden h
    rw [← heq] at hround
    rw [ofRatio_eq_of_grid hnum hround, heq]
  · -- The significand is carried over to the next power of two.
    have hround := round_of_finer hnum hden h hfiner
    have hexponent := gridExponent_of_finer hnum hden h hfiner
    have hleast := (gridExponent_bounds hnum hden).1
    have hcarry : (x.power - 1 + 1074).toNat * 4503599627370496 + 9007199254740992 =
        (x.power + 1074).toNat * 4503599627370496 + 4503599627370496 := by omega
    rw [← hexponent] at hround
    rw [ofRatio_eq_of_grid hnum hround, hexponent, hcarry, (boundary_of_finer hnum hden h hfiner).1]

end Intervals

end RuleTree.Binary64
