import PageForms.Decimal.Shortest
import PageForms.Proofs.Decimal.Rounding

/-!
# The shortest digits read back

Whichever digit count the search for the shortest digits of a representable number ends with, the
digits it returns are rounded to that number: a candidate is only taken after it has been read, and
all digits, which are left when no candidate is taken, are the number exactly.
-/

namespace PageForms.Binary64

private theorem roundQuotient_cases (num den : ℕ) :
    roundQuotient num den = num / den ∨ roundQuotient num den = num / den + 1 := by
  unfold roundQuotient
  simp only
  split
  · exact .inl rfl
  split
  · exact .inr rfl
  split
  · exact .inl rfl
  · exact .inr rfl

private theorem onGrid?_reads {m d : ℕ} {q k : ℤ} (h : onGrid? m q k = some d) :
    ofDecimal false d k = .finite false m q := by
  unfold onGrid? at h
  simp only at h
  split at h
  · next hbelow habove =>
    cases h
    rcases roundQuotient_cases (decimalScale (magnitude m q).1 (magnitude m q).2 k).1
      (decimalScale (magnitude m q).1 (magnitude m q).2 k).2 with hround | hround
    · rw [hround]
      exact beq_iff_eq.1 hbelow
    · rw [hround]
      exact beq_iff_eq.1 habove
  · next hbelow _ =>
    cases h
    exact beq_iff_eq.1 hbelow
  · next _ habove =>
    cases h
    exact beq_iff_eq.1 habove
  · cases h

private theorem allDigits_value (m : ℕ) (q : ℤ) :
    ((allDigits m q).1 : ℚ) * 10 ^ (allDigits m q).2 = m * 2 ^ q := by
  unfold allDigits
  split
  · next hq =>
    obtain ⟨n, rfl⟩ := Int.eq_ofNat_of_zero_le hq
    simp
  · next hq =>
    obtain ⟨n, rfl⟩ := Int.exists_eq_neg_ofNat (by omega : q ≤ 0)
    simp only [neg_neg, Int.toNat_natCast, Nat.pow_eq, Nat.cast_mul, Nat.cast_pow,
      Nat.cast_ofNat, zpow_neg, zpow_natCast]
    rw [show (10 : ℚ) = 5 * 2 by norm_num, mul_pow]
    field_simp

private theorem shortestFrom_reads {m : ℕ} {q : ℤ} (h : IsCanonical m q) (e : ℤ) (counts : List ℕ) :
    ofDecimal false (shortestFrom m q e counts).1 (shortestFrom m q e counts).2 =
      .finite false m q := by
  induction counts with
  | nil =>
      rw [shortestFrom, ofDecimal_eq_nearest, allDigits_value]
      exact nearest_canonical false h
  | cons n counts ih =>
      unfold shortestFrom
      split
      · next d hgrid => exact onGrid?_reads hgrid
      · exact ih

/-- The shortest digits of a representable number are rounded to it. -/
theorem shortest_reads {m : ℕ} {q : ℤ} (h : IsCanonical m q) :
    ofDecimal false (shortest m q).1 (shortest m q).2 = .finite false m q :=
  shortestFrom_reads h _ _

theorem shortest_pos {m : ℕ} {q : ℤ} (h : IsCanonical m q) (hm : 0 < m) :
    0 < (shortest m q).1 := by
  rcases Nat.eq_zero_or_pos (shortest m q).1 with hzero | hpos
  · have hreads := shortest_reads h
    rw [hzero, ofDecimal, if_pos rfl, zero] at hreads
    cases hreads
    omega
  · exact hpos

/-- The sign does not take part in rounding. -/
theorem nearest_eq_finite_of_false {x : ℚ} {m : ℕ} {q : ℤ}
    (h : nearest false x = .finite false m q) (negative : Bool) :
    nearest negative x = .finite negative m q := by
  unfold nearest pack bounded zero at h ⊢
  grind

end PageForms.Binary64
