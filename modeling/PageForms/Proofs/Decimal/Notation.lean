import PageForms.Proofs.Decimal.Shortest
import PageForms.Proofs.Text.Digit

/-!
# The text of a number reads back

Positional and scientific notation are read as a decimal whose value is that of the digits written.
With the shortest digits of a number this is a decimal that is rounded to the number, so the text of
every representable number is read as that number.
-/

namespace PageForms.Binary64

open Text (IsDigit digitOf valueOf)

/-! ## Reading the parts of a number -/

def withSign (negative : Bool) (cs : List Char) : List Char :=
  if negative then '-' :: cs else cs

theorem takeSign_withSign (negative : Bool) {c : Char} (hc : IsDigit c) (cs : List Char) :
    takeSign (withSign negative (c :: cs)) = (negative, c :: cs) := by
  cases negative with
  | true => rfl
  | false =>
      rw [withSign, if_neg (by decide)]
      unfold takeSign
      split
      · next heq =>
        cases heq
        exact absurd hc.1 (by decide)
      · next heq =>
        cases heq
        exact absurd hc.1 (by decide)
      · rfl

private theorem isDigit_zero : IsDigit '0' := by
  unfold IsDigit
  decide

private theorem exponentPart?_exponentText (x : ℤ) :
    exponentPart? ('e' :: exponentText x) = some x := by
  have hdigits := Text.isDigit_of_mem_decimal x.natAbs
  have hvalue := Text.valueOf_decimal x.natAbs
  unfold exponentText
  simp only
  -- a zero in front is a digit and does not change the value
  generalize hcs : (if (Text.decimal x.natAbs).length < 2 then '0' :: Text.decimal x.natAbs
    else Text.decimal x.natAbs) = cs
  have hall : ∀ c ∈ cs, IsDigit c := by
    subst hcs
    split
    · intro c hc
      rcases List.mem_cons.1 hc with rfl | hc
      · exact isDigit_zero
      · exact hdigits c hc
    · exact hdigits
  have hspelled : valueOf cs = x.natAbs := by
    subst hcs
    split
    · rw [← List.singleton_append, Text.valueOf_append, hvalue]
      simp [valueOf, digitOf, Text.ofDigits]
    · exact hvalue
  have hne : cs ≠ [] := by
    subst hcs
    split
    · exact List.cons_ne_nil _ _
    · exact Text.decimal_ne_nil _
  obtain ⟨c, cs, rfl⟩ := List.exists_cons_of_ne_nil hne
  have htake := Text.takeDigits_all hall
  rw [List.map_cons] at htake
  have hnum : Text.ofDigits 10 (digitOf c :: cs.map digitOf) = x.natAbs := hspelled
  by_cases hx : x < 0
  · rw [if_pos hx]
    simp only [exponentPart?, takeSign, htake, hnum]
    exact congrArg some (by omega : -(x.natAbs : ℤ) = x)
  · rw [if_neg hx]
    simp only [exponentPart?, takeSign, htake, hnum]
    exact congrArg some (by omega : (x.natAbs : ℤ) = x)

private theorem decimal?_point (negative : Bool) (whole fraction : List Char) (hne : whole ≠ [])
    (hwhole : ∀ c ∈ whole, IsDigit c) (hfraction : ∀ c ∈ fraction, IsDigit c) :
    decimal? (withSign negative (whole ++ '.' :: fraction)) =
      some ⟨negative, valueOf (whole ++ fraction), -fraction.length⟩ := by
  obtain ⟨c, whole, rfl⟩ := List.exists_cons_of_ne_nil hne
  have hsign := takeSign_withSign negative (hwhole c (by simp)) (whole ++ '.' :: fraction)
  have htake := Text.takeDigits_append hwhole (r := '.' :: fraction)
    (by rintro _ ⟨⟩; decide)
  unfold decimal?
  rw [List.cons_append, hsign, ← List.cons_append]
  simp only [htake, List.map_cons]
  simp [Text.takeDigits_all hfraction, valueOf]

private theorem decimal?_point_exponent (negative : Bool) (whole fraction : List Char)
    (hne : whole ≠ []) (hwhole : ∀ c ∈ whole, IsDigit c) (hfraction : ∀ c ∈ fraction, IsDigit c)
    (x : ℤ) :
    decimal? (withSign negative (whole ++ '.' :: fraction ++ 'e' :: exponentText x)) =
      some ⟨negative, valueOf (whole ++ fraction), x - fraction.length⟩ := by
  obtain ⟨c, whole, rfl⟩ := List.exists_cons_of_ne_nil hne
  have hsign := takeSign_withSign negative (hwhole c (by simp))
    (whole ++ '.' :: (fraction ++ 'e' :: exponentText x))
  have htake := Text.takeDigits_append hwhole (r := '.' :: (fraction ++ 'e' :: exponentText x))
    (by rintro _ ⟨⟩; decide)
  have htake' := Text.takeDigits_append hfraction (r := 'e' :: exponentText x)
    (by rintro _ ⟨⟩; decide)
  have hassoc : (c :: whole) ++ '.' :: fraction ++ 'e' :: exponentText x =
      (c :: whole) ++ '.' :: (fraction ++ 'e' :: exponentText x) := by
    simp
  unfold decimal?
  rw [hassoc, List.cons_append, hsign, ← List.cons_append]
  simp only [htake, List.map_cons]
  simp [htake', exponentPart?_exponentText, valueOf]

private theorem decimal?_exponent (negative : Bool) {whole : List Char} (hne : whole ≠ [])
    (hwhole : ∀ c ∈ whole, IsDigit c) (x : ℤ) :
    decimal? (withSign negative (whole ++ 'e' :: exponentText x)) =
      some ⟨negative, valueOf whole, x⟩ := by
  obtain ⟨c, whole, rfl⟩ := List.exists_cons_of_ne_nil hne
  have hsign := takeSign_withSign negative (hwhole c (by simp)) (whole ++ 'e' :: exponentText x)
  have htake := Text.takeDigits_append hwhole (r := 'e' :: exponentText x)
    (by rintro _ ⟨⟩; decide)
  unfold decimal?
  rw [List.cons_append, hsign, ← List.cons_append]
  simp only [htake, List.map_cons]
  simp [exponentPart?_exponentText, valueOf]

/-! ## Positional and scientific notation -/

/-- Behind either sign the text is read as a decimal with the value `x`. -/
def Denotes (cs : List Char) (x : ℚ) : Prop :=
  ∀ negative, ∃ d, decimal? (withSign negative cs) = some d ∧ d.negative = negative ∧
    (d.digits : ℚ) * 10 ^ d.exponent = x

private theorem Denotes.of_decimal? {cs : List Char} {n : ℕ} {e : ℤ} {x : ℚ}
    (h : ∀ negative, decimal? (withSign negative cs) = some ⟨negative, n, e⟩)
    (hx : (n : ℚ) * 10 ^ e = x) : Denotes cs x :=
  fun negative => ⟨_, h negative, rfl, hx⟩

private theorem isDigit_of_mem_replicate {n : ℕ} {c : Char} (h : c ∈ List.replicate n '0') :
    IsDigit c :=
  List.eq_of_mem_replicate h ▸ isDigit_zero

private theorem denotes_positional {digits : List Char} (hne : digits ≠ [])
    (hdigits : ∀ c ∈ digits, IsDigit c) (point : ℤ) :
    Denotes (positional digits point) (valueOf digits * 10 ^ (point - digits.length)) := by
  unfold positional
  split
  · next hpoint =>
    have hall : ∀ c ∈ List.replicate (-point).toNat '0' ++ digits, IsDigit c := by
      intro c hc
      rcases List.mem_append.1 hc with hc | hc
      · exact isDigit_of_mem_replicate hc
      · exact hdigits c hc
    have hassoc : '0' :: '.' :: List.replicate (-point).toNat '0' ++ digits =
        ['0'] ++ '.' :: (List.replicate (-point).toNat '0' ++ digits) := rfl
    rw [hassoc]
    refine .of_decimal? (fun negative => decimal?_point negative _ _ (by simp)
      (by simp [isDigit_zero]) hall) ?_
    have hzeros : valueOf (['0'] ++ (List.replicate (-point).toNat '0' ++ digits)) =
        valueOf digits := by
      rw [← List.append_assoc, Text.valueOf_append, List.singleton_append, ← List.replicate_succ,
        Text.valueOf_replicate_zero, Nat.zero_mul, Nat.zero_add]
    have hexp : -((List.replicate (-point).toNat '0' ++ digits).length : ℤ) =
        point - digits.length := by
      rw [List.length_append, List.length_replicate]
      omega
    rw [hzeros, hexp]
  · next hpoint =>
    obtain ⟨n, rfl⟩ := Int.eq_ofNat_of_zero_le (by omega : 0 ≤ point)
    simp only [Int.toNat_natCast]
    split
    · next hdrop =>
      -- all digits stand before the point
      have hlen : digits.length ≤ n := by simpa using hdrop
      rw [List.take_of_length_le hlen]
      have hall : ∀ c ∈ digits ++ List.replicate (n - digits.length) '0', IsDigit c := by
        intro c hc
        rcases List.mem_append.1 hc with hc | hc
        · exact hdigits c hc
        · exact isDigit_of_mem_replicate hc
      refine .of_decimal? (fun negative => decimal?_point negative _ ['0'] (by simp [hne]) hall
        (by simp [isDigit_zero])) ?_
      have hzeros : valueOf (digits ++ List.replicate (n - digits.length) '0' ++ ['0']) =
          valueOf digits * 10 ^ (n - digits.length + 1) := by
        rw [List.append_assoc, ← List.replicate_succ', Text.valueOf_append,
          Text.valueOf_replicate_zero, List.length_replicate, Nat.add_zero]
      have hexp : ((n - digits.length + 1 : ℕ) : ℤ) + -(([ '0'] : List Char).length : ℤ) =
          n - digits.length := by
        rw [List.length_singleton]
        omega
      rw [hzeros, Nat.cast_mul, Nat.cast_pow, Nat.cast_ofNat, ← zpow_natCast, mul_assoc,
        ← zpow_add₀ (by norm_num), hexp]
    · next hdrop =>
      -- the point stands among the digits
      have hlen : n < digits.length := by
        simp only [List.isEmpty_iff, List.drop_eq_nil_iff] at hdrop
        omega
      rw [Nat.sub_eq_zero_of_le hlen.le, List.replicate_zero, List.append_nil]
      refine .of_decimal? (fun negative => decimal?_point negative _ _ (by simp [hne]; omega)
        (fun c hc => hdigits c (List.mem_of_mem_take hc))
        (fun c hc => hdigits c (List.mem_of_mem_drop hc))) ?_
      have hexp : -((digits.drop n).length : ℤ) = n - digits.length := by
        rw [List.length_drop]
        omega
      rw [List.take_append_drop, hexp]

private theorem denotes_scientific {digits : List Char} (hne : digits ≠ [])
    (hdigits : ∀ c ∈ digits, IsDigit c) (x : ℤ) :
    Denotes (scientific digits x) (valueOf digits * 10 ^ (x + 1 - digits.length)) := by
  unfold scientific
  split
  · exact absurd rfl hne
  · next d =>
    refine .of_decimal? (fun negative => decimal?_exponent negative hne hdigits x) ?_
    have hexp : x + 1 - ([d] : List Char).length = x := by
      rw [List.length_singleton]
      omega
    rw [hexp]
  · next d ds _ =>
    refine .of_decimal? (fun negative => decimal?_point_exponent negative [d] ds (by simp)
      (by simpa using hdigits d (by simp)) (fun c hc => hdigits c (by simp [hc])) x) ?_
    have hexp : x - (ds.length : ℤ) = x + 1 - (d :: ds).length := by
      rw [List.length_cons]
      omega
    rw [hexp]
    rfl

/-! ## The text of a number -/

private theorem exists_trimZeros (digits : List Char) :
    ∃ n, digits = trimZeros digits ++ List.replicate n '0' := by
  refine ⟨(digits.reverse.takeWhile (· == '0')).length, ?_⟩
  have hzeros : digits.reverse.takeWhile (· == '0') =
      List.replicate (digits.reverse.takeWhile (· == '0')).length '0' := by
    rw [List.eq_replicate_iff]
    refine ⟨rfl, ?_⟩
    intro c hc
    have hzero := List.mem_takeWhile_imp hc
    exact beq_iff_eq.1 hzero
  have hsplit := congrArg List.reverse
    (List.takeWhile_append_dropWhile (p := (· == '0')) (l := digits.reverse))
  rw [List.reverse_append, List.reverse_reverse, hzeros, List.reverse_replicate] at hsplit
  exact hsplit.symm

private theorem isDigit_of_mem_trimZeros (d : ℕ) : ∀ c ∈ trimZeros (Text.decimal d), IsDigit c := by
  intro c hc
  obtain ⟨n, hsplit⟩ := exists_trimZeros (Text.decimal d)
  apply Text.isDigit_of_mem_decimal d
  rw [hsplit]
  exact List.mem_append_left _ hc

private theorem denotes_magnitudeText {m : ℕ} {q : ℤ} (h : IsCanonical m q) (hm : 0 < m) :
    Denotes (magnitudeText m q) ((shortest m q).1 * 10 ^ (shortest m q).2) := by
  have hpos := shortest_pos h hm
  unfold magnitudeText
  rw [if_neg hm.ne']
  generalize shortest m q = s at hpos
  obtain ⟨d, k⟩ := s
  simp only at hpos ⊢
  obtain ⟨n, hsplit⟩ := exists_trimZeros (Text.decimal d)
  have hdigits := isDigit_of_mem_trimZeros d
  have hvalue : valueOf (trimZeros (Text.decimal d)) * 10 ^ n = d := by
    have hall := Text.valueOf_decimal d
    rw [hsplit, Text.valueOf_append, Text.valueOf_replicate_zero, List.length_replicate] at hall
    exact hall
  have hne : trimZeros (Text.decimal d) ≠ [] := by
    intro hnil
    rw [hnil] at hvalue
    simp [valueOf, Text.ofDigits] at hvalue
    omega
  have hlen : (Text.decimal d).length = (trimZeros (Text.decimal d)).length + n := by
    conv_lhs => rw [hsplit]
    rw [List.length_append, List.length_replicate]
  generalize trimZeros (Text.decimal d) = digits at *
  have hscaled : (d : ℚ) * 10 ^ k = valueOf digits * 10 ^ (k + n) := by
    rw [← hvalue, Nat.cast_mul, Nat.cast_pow, Nat.cast_ofNat, ← zpow_natCast, mul_assoc,
      ← zpow_add₀ (by norm_num), add_comm]
  rw [hscaled]
  have hexp : k + (Text.decimal d).length - 1 + 1 - digits.length = k + n := by omega
  split
  · rw [← hexp]
    exact denotes_positional hne hdigits _
  · rw [← hexp]
    exact denotes_scientific hne hdigits _

private theorem toList_text (negative : Bool) (m : ℕ) (q : ℤ) :
    (text (.finite negative m q)).toList = withSign negative (magnitudeText m q) := by
  rw [text, String.toList_ofList]
  rfl

/-- The text of a representable number is read as that number. -/
theorem decimal?_text (negative : Bool) {m : ℕ} {q : ℤ} (h : IsCanonical m q) :
    ∃ d, decimal? (text (.finite negative m q)).toList = some d ∧
      d.toBinary64 = .finite negative m q := by
  rw [toList_text]
  rcases Nat.eq_zero_or_pos m with rfl | hm
  · refine ⟨⟨negative, 0, -1⟩, ?_, ?_⟩
    · exact decimal?_point negative ['0'] ['0'] (by simp)
        (by simp [isDigit_zero]) (by simp [isDigit_zero])
    · rw [h.exponent_of_zero]
      rfl
  · obtain ⟨d, hd, rfl, hvalue⟩ := denotes_magnitudeText h hm negative
    refine ⟨d, hd, ?_⟩
    have hreads := shortest_reads h
    rw [ofDecimal_eq_nearest] at hreads
    rw [Decimal.toBinary64, ofDecimal_eq_nearest, hvalue]
    exact nearest_eq_finite_of_false hreads _

/-! ## The text of a number is an atom -/

/-- A finite number has its significand and exponent in canonical form. -/
def IsRepresentable : Binary64 → Prop
  | .finite _ m q => IsCanonical m q
  | _ => True

theorem isRepresentable_toBinary64 (d : Decimal) : d.toBinary64.IsRepresentable := by
  rw [Decimal.toBinary64, ofDecimal_eq_nearest]
  cases hx : nearest d.negative (d.digits * 10 ^ d.exponent) with
  | finite s m q => exact (nearest_eq_finite (by positivity) hx).2
  | infinite s => trivial
  | nan => trivial

def IsNumeral (c : Char) : Prop :=
  IsDigit c ∨ c ∈ ['.', 'e', '+', '-']

theorem IsNumeral.isAtomChar {c : Char} (h : IsNumeral c) : Token.isAtomChar c = true := by
  rcases h with h | h
  · exact h.isAtomChar
  · have hall : ['.', 'e', '+', '-'].all Token.isAtomChar = true := by decide
    exact List.all_eq_true.1 hall c h

theorem IsNumeral.isAtomStart {c : Char} (h : IsNumeral c) : Token.isAtomStart c = true := by
  have hne : c ≠ '\x27' ∧ c ≠ '#' := by
    rcases h with h | h
    · unfold IsDigit at h
      constructor
      · rintro rfl
        exact absurd h (by decide)
      · rintro rfl
        exact absurd h (by decide)
    · constructor <;>
      · rintro rfl
        exact absurd h (by decide)
  simp [Token.isAtomStart, h.isAtomChar, hne]

private theorem isNumeral_of_mem_positional {digits : List Char} (hdigits : ∀ c ∈ digits, IsDigit c)
    (point : ℤ) : ∀ c ∈ positional digits point, IsNumeral c := by
  intro c hc
  have hzero : ∀ n, c ∈ List.replicate n '0' → IsNumeral c :=
    fun n h => .inl (isDigit_of_mem_replicate h)
  unfold positional at hc
  split at hc
  · simp only [List.cons_append, List.mem_cons, List.mem_append] at hc
    rcases hc with rfl | rfl | hc | hc
    · exact .inl isDigit_zero
    · exact .inr (by decide)
    · exact hzero _ hc
    · exact .inl (hdigits c hc)
  · simp only [List.mem_append, List.mem_cons] at hc
    rcases hc with (hc | hc) | rfl | hc
    · exact .inl (hdigits c (List.mem_of_mem_take hc))
    · exact hzero _ hc
    · exact .inr (by decide)
    · split at hc
      · exact .inl (List.mem_singleton.1 hc ▸ isDigit_zero)
      · exact .inl (hdigits c (List.mem_of_mem_drop hc))

private theorem isNumeral_of_mem_exponentText (x : ℤ) : ∀ c ∈ exponentText x, IsNumeral c := by
  intro c hc
  have hdecimal := Text.isDigit_of_mem_decimal x.natAbs
  rcases List.mem_cons.1 hc with rfl | hc
  · split
    · exact .inr (by decide)
    · exact .inr (by decide)
  · split at hc
    · rcases List.mem_cons.1 hc with rfl | hc
      · exact .inl isDigit_zero
      · exact .inl (hdecimal c hc)
    · exact .inl (hdecimal c hc)

private theorem isNumeral_of_mem_scientific {digits : List Char} (hdigits : ∀ c ∈ digits, IsDigit c)
    (x : ℤ) : ∀ c ∈ scientific digits x, IsNumeral c := by
  intro c hc
  have hexp := isNumeral_of_mem_exponentText x c
  unfold scientific at hc
  split at hc
  · cases hc
  · simp only [List.mem_cons] at hc
    rcases hc with rfl | rfl | hc
    · exact .inl (hdigits c (by simp))
    · exact .inr (by decide)
    · exact hexp hc
  · simp only [List.cons_append, List.mem_cons, List.mem_append] at hc
    rcases hc with rfl | rfl | hc | rfl | hc
    · exact .inl (hdigits c (by simp))
    · exact .inr (by decide)
    · exact .inl (hdigits c (by simp [hc]))
    · exact .inr (by decide)
    · exact hexp hc

private theorem isNumeral_of_mem_magnitudeText (m : ℕ) (q : ℤ) :
    ∀ c ∈ magnitudeText m q, IsNumeral c := by
  unfold magnitudeText
  split
  · intro c hc
    simp only [List.mem_cons, List.not_mem_nil, or_false] at hc
    rcases hc with rfl | rfl | rfl
    · exact .inl isDigit_zero
    · exact .inr (by decide)
    · exact .inl isDigit_zero
  · generalize shortest m q = s
    obtain ⟨d, k⟩ := s
    have hdigits := isDigit_of_mem_trimZeros d
    simp only
    split
    · exact isNumeral_of_mem_positional hdigits _
    · exact isNumeral_of_mem_scientific hdigits _

/-- Numerals with a sign before them are an atom. -/
theorem isLexeme_withSign {text : String} {negative : Bool} {cs : List Char}
    (htext : text.toList = withSign negative cs) (hne : cs ≠ []) (hcs : ∀ c ∈ cs, IsNumeral c) :
    Token.IsLexeme .atom text := by
  have hall : ∀ c ∈ text.toList, IsNumeral c := by
    intro c hc
    rw [htext, withSign] at hc
    split at hc
    · rcases List.mem_cons.1 hc with rfl | hc
      · exact .inr (by decide)
      · exact hcs c hc
    · exact hcs c hc
  have hsome : text.toList ≠ [] := by
    rw [htext, withSign]
    split
    · exact List.cons_ne_nil _ _
    · exact hne
  obtain ⟨c, rest, hrest⟩ := List.exists_cons_of_ne_nil hsome
  rw [hrest] at hall
  exact Token.isLexeme_atom hrest (hall c (by simp)).isAtomStart
    fun b hb => (hall b (by simp [hb])).isAtomChar

/-- The text of a number is an atom. -/
theorem isLexeme_text {x : Binary64} (h : x.IsRepresentable) : Token.IsLexeme .atom x.text := by
  cases x with
  | infinite s => cases s <;> exact ⟨_, _, rfl, by decide⟩
  | nan => exact ⟨_, _, rfl, by decide⟩
  | finite s m q =>
      apply isLexeme_withSign (toList_text s m q) _ (isNumeral_of_mem_magnitudeText m q)
      intro hnil
      obtain ⟨d, hd, -⟩ := decimal?_text s h
      rw [toList_text, hnil] at hd
      cases s <;> cases hd

end PageForms.Binary64
