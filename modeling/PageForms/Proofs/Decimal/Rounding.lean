import Mathlib.Algebra.Order.Field.Power
import Mathlib.Algebra.Order.Floor.Semifield
import Mathlib.Data.Int.Log
import Mathlib.Data.Rat.Floor
import Mathlib.Tactic.FieldSimp
import Mathlib.Tactic.Linarith
import Mathlib.Tactic.NormNum
import Mathlib.Tactic.Positivity
import Mathlib.Tactic.Ring
import PageForms.Decimal.Binary64

/-!
# Rounding as a function of the exact value

`nearest` rounds a rational number to double precision. Rounding a quotient and rounding a decimal
both are `nearest` of the number they stand for, so that two ways of writing one number are rounded
alike. A representable number is rounded to itself.
-/

namespace PageForms.Binary64

def nearestEven (x : ℚ) : ℕ :=
  if 2 * (x - ⌊x⌋₊) < 1 then ⌊x⌋₊
  else if 1 < 2 * (x - ⌊x⌋₊) then ⌊x⌋₊ + 1
  else if ⌊x⌋₊ % 2 = 0 then ⌊x⌋₊
  else ⌊x⌋₊ + 1

/-- The least exponent from `minExponent` on under which a number needs at most 53 bits. -/
def exponentOf (x : ℚ) : ℤ :=
  max (Int.log 2 x - 52) minExponent

def nearest (negative : Bool) (x : ℚ) : Binary64 :=
  if x = 0 then zero negative
  else pack negative (nearestEven (x / 2 ^ exponentOf x)) (exponentOf x)

/-! ## Quotients -/

private theorem roundQuotient_eq (num : ℕ) {den : ℕ} (hden : 0 < den) :
    roundQuotient num den = nearestEven ((num : ℚ) / den) := by
  have hfloor : ⌊(num : ℚ) / den⌋₊ = num / den := Nat.floor_div_eq_div num den
  have hden' : (0 : ℚ) < den := by exact_mod_cast hden
  have hfract : (num : ℚ) / den - (num / den : ℕ) = (num % den : ℕ) / den := by
    have hsplit : (den : ℚ) * (num / den : ℕ) + (num % den : ℕ) = num := by
      exact_mod_cast Nat.div_add_mod num den
    field_simp
    linarith
  have hlt : 2 * ((num % den : ℕ) / den : ℚ) < 1 ↔ 2 * (num % den) < den := by
    rw [← mul_div_assoc, div_lt_one hden']
    exact_mod_cast Iff.rfl
  have hgt : 1 < 2 * ((num % den : ℕ) / den : ℚ) ↔ den < 2 * (num % den) := by
    rw [← mul_div_assoc, one_lt_div hden']
    exact_mod_cast Iff.rfl
  unfold roundQuotient nearestEven
  simp only [hfloor, hfract, hlt, hgt]

private theorem scale_snd_pos (num : ℕ) {den : ℕ} (hden : 0 < den) (q : ℤ) :
    0 < (scale num den q).2 :=
  Nat.mul_pos hden (Nat.pow_pos (by decide))

private theorem scale_ratio (num den : ℕ) (q : ℤ) :
    ((scale num den q).1 : ℚ) / (scale num den q).2 = num / den / 2 ^ q := by
  simp only [scale, Nat.pow_eq, Nat.cast_mul, Nat.cast_pow, Nat.cast_ofNat]
  rcases le_or_gt 0 q with hq | hq
  · obtain ⟨n, rfl⟩ := Int.eq_ofNat_of_zero_le hq
    simp [div_div]
  · obtain ⟨n, rfl⟩ := Int.exists_eq_neg_ofNat hq.le
    simp [mul_div_right_comm]

private theorem fits_iff (num : ℕ) {den : ℕ} (hden : 0 < den) (q : ℤ) :
    fits num den q = true ↔ (num : ℚ) / den < 2 ^ (q + 53) := by
  have hpos : (0 : ℚ) < (scale num den q).2 := by exact_mod_cast scale_snd_pos num hden q
  have htwo : (0 : ℚ) < 2 ^ q := by positivity
  have hnat : (scale num den q).1 < (scale num den q).2 * Nat.pow 2 53 ↔
      ((scale num den q).1 : ℚ) < 2 ^ 53 * (scale num den q).2 := by
    rw [mul_comm ((2 : ℚ) ^ 53), Nat.pow_eq]
    exact_mod_cast Iff.rfl
  unfold fits
  rw [decide_eq_true_eq, hnat, ← div_lt_iff₀ hpos, scale_ratio, div_lt_iff₀ htwo,
    zpow_add₀ (by norm_num), mul_comm ((2 : ℚ) ^ q)]
  exact_mod_cast Iff.rfl

/-- The exponent of a quotient is found from the lengths of its two parts and one comparison. -/
theorem exponentFor_eq {num den : ℕ} (hnum : 0 < num) (hden : 0 < den) :
    exponentFor num den = exponentOf ((num : ℚ) / den) := by
  have hnum' : (0 : ℚ) < num := by exact_mod_cast hnum
  have hden' : (0 : ℚ) < den := by exact_mod_cast hden
  have hratio : (0 : ℚ) < num / den := div_pos hnum' hden'
  have hlow : (num.log2 : ℤ) - den.log2 - 1 ≤ Int.log 2 ((num : ℚ) / den) := by
    rw [← Int.zpow_le_iff_le_log (by decide) hratio, le_div_iff₀ hden']
    calc ((2 : ℕ) : ℚ) ^ ((num.log2 : ℤ) - den.log2 - 1) * den
        ≤ 2 ^ ((num.log2 : ℤ) - den.log2 - 1) * 2 ^ ((den.log2 : ℤ) + 1) := by
          gcongr
          · norm_num
          · exact_mod_cast Nat.lt_log2_self.le
      _ = 2 ^ num.log2 := by
          rw [← zpow_add₀ (by norm_num), ← zpow_natCast]
          congr 1
          ring
      _ ≤ num := by exact_mod_cast Nat.log2_self_le hnum.ne'
  have hhigh : Int.log 2 ((num : ℚ) / den) < (num.log2 : ℤ) - den.log2 + 1 := by
    rw [← Int.lt_zpow_iff_log_lt (by decide) hratio, div_lt_iff₀ hden']
    calc (num : ℚ) < 2 ^ (num.log2 + 1) := by exact_mod_cast Nat.lt_log2_self
      _ = 2 ^ ((num.log2 : ℤ) - den.log2 + 1) * 2 ^ den.log2 := by
          rw [← zpow_natCast, ← zpow_natCast, ← zpow_add₀ (by norm_num)]
          congr 1
          push_cast
          ring
      _ ≤ ((2 : ℕ) : ℚ) ^ ((num.log2 : ℤ) - den.log2 + 1) * den := by
          gcongr
          · norm_num
          · exact_mod_cast Nat.log2_self_le hden.ne'
  have hguess : fits num den ((num.log2 : ℤ) - den.log2 - 53) = true ↔
      Int.log 2 ((num : ℚ) / den) < (num.log2 : ℤ) - den.log2 := by
    rw [fits_iff num hden, ← Int.lt_zpow_iff_log_lt (by decide) hratio]
    norm_num
  unfold exponentFor exponentOf
  simp only
  split
  · next hfits =>
    have := hguess.1 hfits
    congr 1
    omega
  · next hfits =>
    rw [hguess] at hfits
    congr 1
    omega

private theorem ofRatio_of_ne_zero (negative : Bool) {num : ℕ} (hnum : num ≠ 0) (den : ℕ) :
    ofRatio negative num den =
      pack negative (roundQuotient (scale num den (exponentFor num den)).1
        (scale num den (exponentFor num den)).2) (exponentFor num den) := by
  unfold ofRatio
  rw [if_neg hnum]

private theorem ofRatio_eq_nearest (negative : Bool) (num : ℕ) {den : ℕ} (hden : 0 < den) :
    ofRatio negative num den = nearest negative ((num : ℚ) / den) := by
  have hden' : (den : ℚ) ≠ 0 := by exact_mod_cast hden.ne'
  rcases Nat.eq_zero_or_pos num with rfl | hnum
  · simp [ofRatio, nearest]
  · have hne : (num : ℚ) / den ≠ 0 := div_ne_zero (by exact_mod_cast hnum.ne') hden'
    have hround : roundQuotient (scale num den (exponentFor num den)).1
        (scale num den (exponentFor num den)).2 =
          nearestEven ((num : ℚ) / den / 2 ^ exponentFor num den) := by
      rw [roundQuotient_eq _ (scale_snd_pos num hden _), scale_ratio]
    rw [ofRatio_of_ne_zero negative hnum.ne', nearest, if_neg hne, hround,
      exponentFor_eq hnum hden]

/-! ## The ends of the range -/

private theorem nearest_of_huge (negative : Bool) {x : ℚ} (hx : (2 : ℚ) ^ (1024 : ℤ) ≤ x) :
    nearest negative x = .infinite negative := by
  have hpos : 0 < x := lt_of_lt_of_le (by positivity) hx
  have hlog : 1024 ≤ Int.log 2 x := by
    rw [← Int.zpow_le_iff_le_log (by decide) hpos]
    exact_mod_cast hx
  have hexp : 972 ≤ exponentOf x := by
    unfold exponentOf
    omega
  unfold nearest pack
  rw [if_neg hpos.ne']
  split
  · exact if_pos (by unfold maxExponent; omega)
  · exact if_pos (by unfold maxExponent; omega)

private theorem nearestEven_of_lt_half {x : ℚ} (hx : x < 1 / 2) : nearestEven x = 0 := by
  have hfloor : ⌊x⌋₊ = 0 := Nat.floor_eq_zero.2 (by linarith)
  unfold nearestEven
  rw [hfloor, Nat.cast_zero, sub_zero, if_pos (by linarith)]

private theorem nearest_of_tiny (negative : Bool) {x : ℚ} (hpos : 0 < x)
    (hx : x < (2 : ℚ) ^ (-1075 : ℤ)) : nearest negative x = zero negative := by
  have hlog : Int.log 2 x < -1075 := by
    rw [← Int.lt_zpow_iff_log_lt (by decide) hpos]
    exact_mod_cast hx
  have hexp : exponentOf x = -1074 := by
    unfold exponentOf minExponent
    omega
  have hhalf : x / 2 ^ (-1074 : ℤ) < 1 / 2 := by
    rw [div_lt_iff₀ (by positivity)]
    calc x < 2 ^ (-1075 : ℤ) := hx
      _ = 1 / 2 * 2 ^ (-1074 : ℤ) := by
          rw [show (-1075 : ℤ) = -1 + -1074 by rfl, zpow_add₀ (by norm_num)]
          norm_num
  unfold nearest pack bounded zero maxExponent minExponent
  rw [if_neg hpos.ne', hexp, nearestEven_of_lt_half hhalf, if_neg (by decide),
    if_neg (by decide)]

/-! ## Decimals -/

private theorem two_zpow_le_ten_zpow : (2 : ℚ) ^ (1200 : ℤ) ≤ 10 ^ (400 : ℤ) := by
  have height : (2 : ℚ) ^ (1200 : ℤ) = (2 ^ (3 : ℤ)) ^ (400 : ℤ) := by
    rw [← zpow_mul]
    rfl
  rw [height]
  apply zpow_le_zpow_left₀ (by decide) (by positivity)
  norm_num

theorem ofDecimal_eq_nearest (negative : Bool) (digits : ℕ) (exponent : ℤ) :
    ofDecimal negative digits exponent = nearest negative (digits * 10 ^ exponent) := by
  unfold ofDecimal
  split
  · next hzero =>
    subst hzero
    simp [nearest]
  next hne =>
  have hdigits : (1 : ℚ) ≤ digits := by exact_mod_cast Nat.one_le_iff_ne_zero.2 hne
  split
  · next hlarge =>
    symm
    apply nearest_of_huge
    calc (2 : ℚ) ^ (1024 : ℤ) ≤ 2 ^ (1200 : ℤ) := zpow_le_zpow_right₀ (by norm_num) (by decide)
      _ ≤ 10 ^ (400 : ℤ) := two_zpow_le_ten_zpow
      _ ≤ 10 ^ exponent := zpow_le_zpow_right₀ (by norm_num) hlarge.le
      _ ≤ digits * 10 ^ exponent := le_mul_of_one_le_left (by positivity) hdigits
  split
  · next hsmall =>
    symm
    apply nearest_of_tiny
    · positivity
    · have hlog : (digits : ℚ) < 2 ^ ((digits.log2 : ℤ) + 1) := by
        exact_mod_cast Nat.lt_log2_self
      have hten : (10 : ℚ) ^ exponent ≤ 10 ^ (-400 - ((digits.log2 : ℤ) + 1)) :=
        zpow_le_zpow_right₀ (by norm_num) hsmall.le
      have hlength : 0 ≤ (digits.log2 : ℤ) + 1 := by omega
      generalize (digits.log2 : ℤ) + 1 = length at hlog hten hlength
      have hshrink : ((2 : ℚ) / 10) ^ length ≤ 1 := by
        obtain ⟨n, rfl⟩ := Int.eq_ofNat_of_zero_le hlength
        rw [zpow_natCast]
        exact pow_le_one₀ (by norm_num) (by norm_num)
      calc (digits : ℚ) * 10 ^ exponent < 2 ^ length * 10 ^ exponent :=
            mul_lt_mul_of_pos_right hlog (by positivity)
        _ ≤ 2 ^ length * 10 ^ (-400 - length) := mul_le_mul_of_nonneg_left hten (by positivity)
        _ = (2 / 10) ^ length * 10 ^ (-400 : ℤ) := by
            rw [zpow_sub₀ (by norm_num), div_zpow]
            ring
        _ ≤ 1 * 10 ^ (-400 : ℤ) := mul_le_mul_of_nonneg_right hshrink (by positivity)
        _ ≤ 2 ^ (-1200 : ℤ) := by
            rw [one_mul, zpow_neg, zpow_neg]
            exact inv_anti₀ (by positivity) two_zpow_le_ten_zpow
        _ ≤ 2 ^ (-1075 : ℤ) := zpow_le_zpow_right₀ (by norm_num) (by decide)
  split
  · next hnonneg =>
    rw [ofRatio_eq_nearest _ _ (by decide)]
    obtain ⟨n, rfl⟩ := Int.eq_ofNat_of_zero_le hnonneg
    simp
  · next hneg =>
    rw [Nat.pow_eq, ofRatio_eq_nearest _ _ (Nat.pow_pos (by decide))]
    obtain ⟨n, rfl⟩ := Int.exists_eq_neg_ofNat (by omega : exponent ≤ 0)
    simp [div_eq_mul_inv]

/-! ## Representable numbers -/

/-- The significand and the exponent are those of a double-precision number: the significand has 53
bits, or fewer if the exponent is the least one. -/
structure IsCanonical (m : ℕ) (q : ℤ) : Prop where
  significand_lt : m < 2 ^ 53
  le_exponent : minExponent ≤ q
  exponent_le : q ≤ maxExponent
  normal : 2 ^ 52 ≤ m ∨ q = minExponent

theorem IsCanonical.exponent_of_zero {q : ℤ} (h : IsCanonical 0 q) : q = minExponent := by
  rcases h.normal with hnormal | hleast
  · norm_num at hnormal
  · exact hleast

private theorem nearestEven_natCast (n : ℕ) : nearestEven (n : ℚ) = n := by
  unfold nearestEven
  rw [Nat.floor_natCast, sub_self, mul_zero, if_pos (by norm_num)]

private theorem exponentOf_canonical {m : ℕ} {q : ℤ} (h : IsCanonical m q) (hm : 0 < m) :
    exponentOf ((m : ℚ) * 2 ^ q) = q := by
  have hm' : (0 : ℚ) < m := by exact_mod_cast hm
  have hpos : (0 : ℚ) < m * 2 ^ q := by positivity
  have hlt : Int.log 2 ((m : ℚ) * 2 ^ q) < q + 53 := by
    rw [← Int.lt_zpow_iff_log_lt (by decide) hpos, Nat.cast_ofNat, zpow_add₀ (by norm_num),
      mul_comm ((2 : ℚ) ^ q)]
    apply mul_lt_mul_of_pos_right _ (by positivity)
    exact_mod_cast h.significand_lt
  unfold exponentOf
  rcases h.normal with hnormal | hleast
  · have hge : q + 52 ≤ Int.log 2 ((m : ℚ) * 2 ^ q) := by
      rw [← Int.zpow_le_iff_le_log (by decide) hpos, Nat.cast_ofNat, zpow_add₀ (by norm_num),
        mul_comm ((2 : ℚ) ^ q)]
      apply mul_le_mul_of_nonneg_right _ (by positivity)
      exact_mod_cast hnormal
    have := h.le_exponent
    omega
  · rw [← hleast]
    omega

/-- A representable number is rounded to itself. -/
theorem nearest_canonical (negative : Bool) {m : ℕ} {q : ℤ} (h : IsCanonical m q) :
    nearest negative (m * 2 ^ q) = .finite negative m q := by
  rcases Nat.eq_zero_or_pos m with rfl | hm
  · rw [h.exponent_of_zero]
    simp [nearest, zero]
  · have hm' : (m : ℚ) ≠ 0 := by exact_mod_cast hm.ne'
    have hlt := h.significand_lt
    have hle := h.exponent_le
    unfold nearest pack bounded
    rw [if_neg (by positivity), exponentOf_canonical h hm, mul_div_cancel_right₀ _ (by positivity),
      nearestEven_natCast, Nat.pow_eq, if_neg hlt.ne, if_neg (not_lt.2 hle)]

private theorem nearestEven_bounds {x : ℚ} {a b : ℕ} (ha : (a : ℚ) ≤ x) (hb : x < b) :
    a ≤ nearestEven x ∧ nearestEven x ≤ b := by
  have hlow : a ≤ ⌊x⌋₊ := Nat.le_floor ha
  have hhigh : ⌊x⌋₊ < b := (Nat.floor_lt (le_trans (Nat.cast_nonneg a) ha)).2 hb
  unfold nearestEven
  split
  · omega
  split
  · omega
  split
  · omega
  · omega

private theorem bounded_eq_finite {negative s : Bool} {m m' : ℕ} {q q' : ℤ}
    (h : bounded negative m q = .finite s m' q') :
    s = negative ∧ m' = m ∧ q' = q ∧ q ≤ maxExponent := by
  unfold bounded at h
  split at h
  · cases h
  · next hle =>
    cases h
    exact ⟨rfl, rfl, rfl, not_lt.1 hle⟩

private theorem scaled_bounds {x : ℚ} (hx : 0 < x) :
    x / 2 ^ exponentOf x < 2 ^ 53 ∧
      (minExponent < exponentOf x → 2 ^ 52 ≤ x / 2 ^ exponentOf x) := by
  have htwo : (0 : ℚ) < 2 ^ exponentOf x := by positivity
  have hlog : Int.log 2 x - 52 ≤ exponentOf x := le_max_left _ _
  constructor
  · rw [div_lt_iff₀ htwo]
    calc x < ((2 : ℕ) : ℚ) ^ (Int.log 2 x + 1) := Int.lt_zpow_succ_log_self (by decide) x
      _ ≤ 2 ^ (53 + exponentOf x) := by
          rw [Nat.cast_ofNat]
          exact zpow_le_zpow_right₀ (by norm_num) (by omega)
      _ = 2 ^ 53 * 2 ^ exponentOf x := by
          rw [zpow_add₀ (by norm_num)]
          rfl
  · intro hnormal
    have hexp : 52 + exponentOf x = Int.log 2 x := by
      unfold exponentOf at hnormal ⊢
      omega
    rw [le_div_iff₀ htwo]
    calc (2 : ℚ) ^ 52 * 2 ^ exponentOf x = 2 ^ Int.log 2 x := by
          rw [← hexp, zpow_add₀ (by norm_num)]
          rfl
      _ ≤ x := by exact_mod_cast Int.zpow_log_le_self (by decide) hx

/-- What rounding gives is representable and has the sign that was asked for. -/
theorem nearest_eq_finite {negative s : Bool} {x : ℚ} {m : ℕ} {q : ℤ} (hx : 0 ≤ x)
    (h : nearest negative x = .finite s m q) : s = negative ∧ IsCanonical m q := by
  unfold nearest at h
  split at h
  · cases h
    exact ⟨rfl, by decide, le_refl _, by decide, .inr rfl⟩
  · next hne =>
    have hpos : 0 < x := lt_of_le_of_ne hx (Ne.symm hne)
    obtain ⟨hhigh, hlow⟩ := scaled_bounds hpos
    have hleast : minExponent ≤ exponentOf x := le_max_right _ _
    unfold pack at h
    split at h
    · obtain ⟨rfl, rfl, rfl, hle⟩ := bounded_eq_finite h
      exact ⟨rfl, by decide, by omega, hle, .inl (by decide)⟩
    · next hm =>
      obtain ⟨rfl, rfl, rfl, hle⟩ := bounded_eq_finite h
      rw [Nat.pow_eq] at hm
      have hhigh' : x / 2 ^ exponentOf x < ((2 ^ 53 : ℕ) : ℚ) := by exact_mod_cast hhigh
      have hzero : ((0 : ℕ) : ℚ) ≤ x / 2 ^ exponentOf x := by
        rw [Nat.cast_zero]
        positivity
      have hlt := (nearestEven_bounds hzero hhigh').2
      refine ⟨rfl, by omega, hleast, hle, ?_⟩
      rcases hleast.lt_or_eq with hnormal | heq
      · have hlow' : ((2 ^ 52 : ℕ) : ℚ) ≤ x / 2 ^ exponentOf x := by exact_mod_cast hlow hnormal
        exact .inl (nearestEven_bounds hlow' hhigh').1
      · exact .inr heq.symm

end PageForms.Binary64
