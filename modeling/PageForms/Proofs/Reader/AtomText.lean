import PageForms.Proofs.Datum.Finite
import PageForms.Proofs.Decimal.Notation
import PageForms.Proofs.Reader.Origin
import PageForms.Proofs.Reader.ReadBack
import PageForms.Proofs.Text.Quoted

/-!
# The texts of atoms

What a lexeme is read as is written as a lexeme of the same kind, and, numbers that have no text of
their own apart, that lexeme is read as the same value again.
-/

namespace PageForms

open Binary64 (withSign takeSign_withSign)
open Token (IsLexeme)

/-! ## Integers -/

namespace Text

private theorem toList_decimalInt (n : ℤ) :
    (decimalInt n).toList = withSign (decide (n < 0)) (decimal n.natAbs) := by
  cases n with
  | ofNat n =>
      rw [decimalInt, String.toList_ofList]
      simp [withSign]
  | negSucc n =>
      rw [decimalInt, String.toList_ofList]
      simp [withSign, Int.negSucc_lt_zero]

private theorem isLexeme_decimalInt (n : ℤ) : IsLexeme .atom (decimalInt n) :=
  Binary64.isLexeme_withSign (toList_decimalInt n) (decimal_ne_nil _)
    fun c hc => .inl (isDigit_of_mem_decimal n.natAbs c hc)

end Text

namespace Reader

private theorem takeSign_decimalInt (n : ℤ) :
    Binary64.takeSign (Text.decimalInt n).toList = (decide (n < 0), Text.decimal n.natAbs) := by
  have hdigits := Text.isDigit_of_mem_decimal n.natAbs
  rw [Text.toList_decimalInt]
  obtain ⟨c, cs, hcs⟩ := List.exists_cons_of_ne_nil (Text.decimal_ne_nil n.natAbs)
  rw [hcs] at hdigits ⊢
  exact takeSign_withSign _ (hdigits c (by simp)) cs

private theorem hexInt?_decimalInt (n : ℤ) : hexInt? (Text.decimalInt n).toList = none := by
  unfold hexInt?
  rw [takeSign_decimalInt]
  simp only
  split
  · next x rest hdecimal =>
    have hx : Text.IsDigit x := by
      apply Text.isDigit_of_mem_decimal n.natAbs
      rw [hdecimal]
      simp
    rw [if_neg]
    simp only [Bool.or_eq_true, beq_iff_eq]
    unfold Text.IsDigit at hx
    rintro (rfl | rfl)
    · exact absurd hx (by decide)
    · exact absurd hx (by decide)
  · rfl

private theorem intDigits?_decimalInt (n : ℤ) :
    intDigits? (Text.decimalInt n).toList =
      some (decide (n < 0), (Text.decimal n.natAbs).map Text.digitOf) := by
  have htake := Text.takeDigits_all (Text.isDigit_of_mem_decimal n.natAbs)
  obtain ⟨c, cs, hcs⟩ := List.exists_cons_of_ne_nil (Text.decimal_ne_nil n.natAbs)
  rw [hcs, List.map_cons] at htake
  unfold intDigits?
  rw [takeSign_decimalInt, hcs]
  simp only [htake, List.map_cons]

private theorem decimalInt_ne {n : ℤ} {word : String} (h : intDigits? word.toList = none) :
    Text.decimalInt n ≠ word := by
  rintro rfl
  rw [intDigits?_decimalInt] at h
  cases h

/-- The decimal text of an integer that is short enough is read as that integer. -/
theorem readAtom_decimalInt {n : ℤ} (h : n.natAbs < Nat.pow 10 digitLimit) :
    readAtom (Text.decimalInt n) = .ok (.int n) := by
  have hlen : ((Text.decimal n.natAbs).map Text.digitOf).length ≤ digitLimit := by
    rw [List.length_map]
    rw [Nat.pow_eq] at h
    generalize hk : digitLimit = k at h ⊢
    have hpos : 0 < k := hk ▸ (by decide : 0 < digitLimit)
    exact Text.length_decimal_le h hpos
  have hvalue : Text.ofDigits 10 ((Text.decimal n.natAbs).map Text.digitOf) = n.natAbs :=
    Text.valueOf_decimal n.natAbs
  unfold readAtom
  rw [if_neg (decimalInt_ne rfl), if_neg (decimalInt_ne rfl), if_neg (decimalInt_ne rfl),
    hexInt?_decimalInt, intDigits?_decimalInt]
  simp only [ofDigits, if_pos hlen, hvalue]
  congr 2
  split
  · next hneg =>
    have : n < 0 := by simpa using hneg
    omega
  · next hneg =>
    have : ¬ n < 0 := by simpa using hneg
    omega

/-! ## Floating-point numbers -/

private theorem hexInt?_of_decimal? {cs : List Char} {d : Binary64.Decimal}
    (h : Binary64.decimal? cs = some d) : hexInt? cs = none := by
  unfold hexInt?
  unfold Binary64.decimal? at h
  generalize Binary64.takeSign cs = signed at *
  obtain ⟨negative, cs⟩ := signed
  simp only at h ⊢
  split
  · next x rest =>
    rw [if_neg]
    simp only [Bool.or_eq_true, beq_iff_eq]
    -- behind a zero and the mark there is neither a point nor an exponent
    rintro (rfl | rfl)
    · cases h
    · cases h
  · rfl

private theorem intDigits?_of_decimal? {cs : List Char} {d : Binary64.Decimal}
    (h : Binary64.decimal? cs = some d) : intDigits? cs = none := by
  unfold intDigits?
  unfold Binary64.decimal? at h
  generalize Binary64.takeSign cs = signed at *
  obtain ⟨negative, cs⟩ := signed
  simp only at h ⊢
  split
  · next hdigits =>
    rw [hdigits] at h
    cases h
  · rfl

/-- A text with a point or an exponent is read as the number nearest to it. -/
theorem readAtom_of_decimal? {text : String} {d : Binary64.Decimal}
    (h : Binary64.decimal? text.toList = some d) :
    readAtom text = .ok (.float d.toBinary64) := by
  have hne : ∀ word : String, Binary64.decimal? word.toList = none → text ≠ word := by
    rintro word hword rfl
    rw [hword] at h
    cases h
  unfold readAtom
  rw [if_neg (hne _ rfl), if_neg (hne _ rfl), if_neg (hne _ rfl), hexInt?_of_decimal? h,
    intDigits?_of_decimal? h, h]

end Reader

/-! ## Atoms that were read -/

namespace Datum

/-- The kind of a lexeme that is kept as it is written shows in its first character. -/
theorem literalKind_of_isLexeme {kind : TokenKind} {text : String} (h : IsLexeme kind text)
    (hkind : kind = .metadata ∨ kind = .regex ∨ kind = .character ∨ kind = .atom) :
    literalKind text = kind := by
  obtain ⟨c, cs, htext, hlexeme⟩ := h
  unfold literalKind
  rw [htext]
  unfold Token.lexeme? at hlexeme
  split at hlexeme
  · cases hlexeme
  split at hlexeme
  case h_2 =>
    obtain ⟨n, -, hpair⟩ := Option.map_eq_some_iff.1 hlexeme
    cases hpair
    simp at hkind
  case h_3 =>
    split at hlexeme
    · obtain ⟨n, -, hpair⟩ := Option.map_eq_some_iff.1 hlexeme
      cases hpair
      rfl
    all_goals grind
  case h_5 =>
    obtain ⟨n, -, hpair⟩ := Option.map_eq_some_iff.1 hlexeme
    cases hpair
    rfl
  all_goals grind

/-- An atom that was read is written as a single lexeme. -/
theorem FromLexeme.isSpelled {v : Datum} (h : FromLexeme v) : IsSpelled v := by
  obtain ⟨t, ht, hvalue⟩ := h
  rcases Reader.atomValue?_cases hvalue with ⟨_, s, rfl⟩ | ⟨hkind, rfl⟩ | ⟨hkind, hatom⟩
  · exact Text.isLexeme_quote s
  · have hliteral := literalKind_of_isLexeme ht (by tauto)
    rw [IsSpelled, atomKind, write, hliteral]
    exact ht
  · rw [hkind] at ht
    rcases Reader.readAtom_cases hatom with ⟨rfl, htext⟩ | ⟨rfl, htext⟩ | ⟨rfl, htext⟩ | ⟨n, rfl⟩ |
      ⟨d, -, rfl⟩ | rfl | ⟨name, rfl, htext⟩ | rfl
    · rwa [htext] at ht
    · rwa [htext] at ht
    · rwa [htext] at ht
    · exact Text.isLexeme_decimalInt n
    · exact Binary64.isLexeme_text (Binary64.isRepresentable_toBinary64 d)
    · rw [IsSpelled, atomKind, write, literalKind_of_isLexeme ht (by tauto)]
      exact ht
    · rwa [htext] at ht
    · exact ht

/-- An atom that was read and has a text is read from that text. -/
theorem FromLexeme.readsBack {v : Datum} (h : FromLexeme v) (hv : v.isPrintable = true) :
    ReadsBack v := by
  obtain ⟨t, ht, hvalue⟩ := h
  intro place
  rcases Reader.atomValue?_cases hvalue with ⟨_, s, rfl⟩ | ⟨hkind, rfl⟩ | ⟨hkind, hatom⟩
  · simp only [atomKind, write, Reader.atomValue?, Text.unquote_quote]
    rw [Except.map_ok, String.ofList_toList]
  · rw [atomKind, write, literalKind_of_isLexeme ht (by tauto)]
    rcases hkind with hkind | hkind | hkind <;> rw [hkind] <;> rfl
  · have hreads : v.atomKind = .atom → Reader.readAtom v.write = .ok v →
        Reader.atomValue? ⟨v.atomKind, v.write, place⟩ = some (.ok v) := by
      intro hk hw
      rw [hk, Reader.atomValue?, hw]
    rw [hkind] at ht
    rcases Reader.readAtom_cases hatom with ⟨rfl, htext⟩ | ⟨rfl, htext⟩ | ⟨rfl, htext⟩ | ⟨n, rfl⟩ |
      ⟨d, hd, rfl⟩ | rfl | ⟨name, rfl, htext⟩ | rfl
    · exact hreads rfl rfl
    · exact hreads rfl rfl
    · exact hreads rfl rfl
    · simp only [isPrintable, writable, isFinite, Bool.and_true, decide_eq_true_eq] at hv
      exact hreads rfl (Reader.readAtom_decimalInt hv)
    · have hrepresentable := Binary64.isRepresentable_toBinary64 d
      generalize d.toBinary64 = x at *
      cases x with
      | infinite s => cases hv
      | nan => cases hv
      | finite s m q =>
          obtain ⟨d', hd', hx⟩ := Binary64.decimal?_text s hrepresentable
          apply hreads rfl
          rw [write, Reader.readAtom_of_decimal? hd', hx]
    · exact hreads (literalKind_of_isLexeme ht (by tauto)) hatom
    · rw [htext] at hatom
      exact hreads rfl hatom
    · exact hreads rfl hatom

end Datum

end PageForms
