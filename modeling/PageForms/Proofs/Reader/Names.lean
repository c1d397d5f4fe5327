import PageForms.Proofs.Reader.Origin

/-!
# Names that can be read

A symbol or a keyword can have any name, but not every name is read from the text it is written as.
`isSymbolName` and `isKeywordName` say of which names that holds.
-/

namespace PageForms.Reader

open Token (isAtomStart isAtomChar IsLexeme)

def isSymbolName (name : String) : Bool :=
  match name.toList with
  | [] => false
  | c :: cs =>
    isAtomStart c && cs.all isAtomChar && c != ':' && !startsLikeNumber (c :: cs) &&
      !(["nil", "true", "false"].contains name)

def isKeywordName (name : String) : Bool :=
  name.toList.all isAtomChar && name.toList.head? != some ':'

/-! ## Atoms that are no numbers -/

private theorem takeDigits_of_head {value? : Char → Option Nat} {cs : List Char}
    (h : ∀ c ∈ cs.head?, value? c = none) : Text.takeDigits value? cs = ([], cs) := by
  cases cs with
  | nil => rfl
  | cons c cs => rw [Text.takeDigits, h c rfl]

private theorem digitValue?_of_isDigitLike {c : Char} (h : Text.isDigitLike c = false) :
    Text.digitValue? c = none := by
  rw [Text.isDigitLike, Bool.or_eq_false_iff, Option.isSome_eq_false_iff,
    Option.isNone_iff_eq_none] at h
  exact h.1

private theorem head_takeSign {cs : List Char} (h : startsLikeNumber cs = false) :
    ∀ c ∈ (Binary64.takeSign cs).2.head?, Text.digitValue? c = none := by
  have hsigned : ∀ sign rest, startsLikeNumber (sign :: rest) = false →
      (sign == '+' || sign == '-') = true → ∀ c ∈ rest.head?, Text.isDigitLike c = false := by
    intro sign rest hrest hsign c hc
    cases rest with
    | nil => cases hc
    | cons d rest =>
        cases hc
        rw [startsLikeNumber, hsign, Bool.true_and, Bool.or_eq_false_iff] at hrest
        exact hrest.2
  unfold Binary64.takeSign
  split
  · next rest => exact fun c hc => digitValue?_of_isDigitLike (hsigned '-' rest h rfl c hc)
  · next rest => exact fun c hc => digitValue?_of_isDigitLike (hsigned '+' rest h rfl c hc)
  · intro c hc
    apply digitValue?_of_isDigitLike
    unfold startsLikeNumber at h
    split at h
    · cases hc
      exact (Bool.or_eq_false_iff.1 h).1
    · cases hc
      exact h
    · cases hc

/-- What does not start like a number has no value as one. -/
theorem number?_of_startsLikeNumber {cs : List Char} (h : startsLikeNumber cs = false) :
    hexInt? cs = none ∧ intDigits? cs = none ∧ Binary64.decimal? cs = none := by
  have hhead := head_takeSign h
  unfold hexInt? intDigits? Binary64.decimal?
  generalize Binary64.takeSign cs = signed at hhead
  obtain ⟨negative, rest⟩ := signed
  have hdigits := takeDigits_of_head hhead
  simp only at hhead hdigits ⊢
  refine ⟨?_, ?_, ?_⟩
  · split
    · exact absurd (hhead '0' rfl) (by decide)
    · rfl
  · rw [hdigits]
  · rw [hdigits]

private theorem readAtom_eq_readName {text : String}
    (hnumber : startsLikeNumber text.toList = false)
    (hconstant : text ∉ ["nil", "true", "false"]) : readAtom text = readName text := by
  obtain ⟨hhex, hint, hdecimal⟩ := number?_of_startsLikeNumber hnumber
  simp only [List.mem_cons, List.not_mem_nil, or_false, not_or] at hconstant
  unfold readAtom
  rw [if_neg hconstant.1, if_neg hconstant.2.1, if_neg hconstant.2.2, hhex, hint, hdecimal]

def isNamed : Datum → Bool
  | .symbol _ | .keyword _ => true
  | _ => false

private theorem readName_of_readAtom {text : String} {v : Datum} (h : readAtom text = .ok v)
    (hv : isNamed v = true) : text ∉ ["nil", "true", "false"] ∧ readName text = .ok v := by
  unfold readAtom at h
  split at h
  · cases h
    cases hv
  · next hnil =>
    split at h
    · cases h
      cases hv
    · next htrue =>
      split at h
      · cases h
        cases hv
      · next hfalse =>
        refine ⟨by simp [hnil, htrue, hfalse], ?_⟩
        split at h
        · cases h
          cases hv
        · split at h
          · unfold ofDigits at h
            split at h
            · cases h
              cases hv
            · cases h
          · split at h
            · cases h
              cases hv
            · exact h

private theorem readName_eq_ok {text : String} {v : Datum} (h : readName text = .ok v)
    (hv : isNamed v = true) :
    ∃ c cs, text.toList = c :: cs ∧ startsLikeNumber (c :: cs) = false ∧
      ((c ≠ ':' ∧ v = .symbol text) ∨
        (c = ':' ∧ cs.head? ≠ some ':' ∧ v = .keyword (String.ofList cs))) := by
  unfold readName at h
  split at h
  · cases h
  · next c cs htext =>
    refine ⟨c, cs, htext, ?_⟩
    split at h
    · cases h
      cases hv
    · next hnumber =>
      refine ⟨by simpa using hnumber, ?_⟩
      split at h
      · cases h
        cases hv
      · next hsecond =>
        cases h
        refine .inr ⟨rfl, ?_, rfl⟩
        intro hhead
        obtain ⟨rest, rfl⟩ := List.head?_eq_some_iff.1 hhead
        exact hsecond rest rfl
      · next hfirst _ =>
        cases h
        exact .inl ⟨hfirst, rfl⟩

/-! ## Symbols and keywords -/

theorem isLexeme_atom_iff {text : String} :
    IsLexeme .atom text ↔
      ∃ c cs, text.toList = c :: cs ∧ isAtomStart c = true ∧ cs.all isAtomChar = true := by
  constructor
  · rintro ⟨c, cs, htext, hlexeme⟩
    refine ⟨c, cs, htext, ?_⟩
    by_cases hstart : isAtomStart c = true
    · rw [Token.lexeme?_of_isAtomStart hstart] at hlexeme
      have hlength : (cs.takeWhile isAtomChar).length = cs.length := by
        simpa using hlexeme
      have hall : cs.takeWhile isAtomChar = cs :=
        (List.takeWhile_sublist _).eq_of_length hlength
      exact ⟨hstart, List.all_eq_true.2 (List.takeWhile_eq_self_iff.1 hall)⟩
    · -- every other lexeme has a kind of its own
      exfalso
      unfold Token.lexeme? at hlexeme
      grind [Option.map_eq_some_iff]
  · rintro ⟨c, cs, htext, hc, hcs⟩
    exact Token.isLexeme_atom htext hc (List.all_eq_true.1 hcs)

private theorem fromLexeme_iff_of_isNamed {v : Datum} (hv : isNamed v = true) :
    v.FromLexeme ↔ ∃ text, IsLexeme .atom text ∧ readAtom text = .ok v := by
  constructor
  · rintro ⟨t, ht, hvalue⟩
    rcases atomValue?_cases hvalue with ⟨-, s, rfl⟩ | ⟨-, rfl⟩ | ⟨hkind, hread⟩
    · cases hv
    · cases hv
    · rw [hkind] at ht
      exact ⟨t.text, ht, hread⟩
  · rintro ⟨text, ht, hread⟩
    refine ⟨⟨.atom, text, .start⟩, ht, ?_⟩
    rw [atomValue?, hread]

theorem fromLexeme_symbol_iff {name : String} :
    (Datum.symbol name).FromLexeme ↔ isSymbolName name = true := by
  rw [fromLexeme_iff_of_isNamed rfl]
  constructor
  · rintro ⟨text, hlexeme, hread⟩
    obtain ⟨hconstant, hname⟩ := readName_of_readAtom hread rfl
    obtain ⟨c, cs, htext, hnumber, ⟨hcolon, hsymbol⟩ | ⟨-, -, hkeyword⟩⟩ := readName_eq_ok hname rfl
    · cases hsymbol
      obtain ⟨d, ds, htext', hstart, hchars⟩ := isLexeme_atom_iff.1 hlexeme
      obtain ⟨rfl, rfl⟩ := List.cons.inj (htext.symm.trans htext')
      simp only [isSymbolName, htext]
      simp only [hstart, hchars, hnumber, bne_iff_ne.2 hcolon, Bool.true_and, Bool.not_false,
        Bool.not_eq_true', ← Bool.not_eq_true, List.contains_iff_mem]
      exact hconstant
    · cases hkeyword
  · intro h
    unfold isSymbolName at h
    split at h
    · cases h
    · next c cs htext =>
      simp only [Bool.and_eq_true, Bool.not_eq_true', bne_iff_ne, ← Bool.not_eq_true,
        List.contains_iff_mem] at h
      obtain ⟨⟨⟨⟨hstart, hchars⟩, hcolon⟩, hnumber⟩, hconstant⟩ := h
      rw [Bool.not_eq_true] at hnumber
      refine ⟨name, isLexeme_atom_iff.2 ⟨c, cs, htext, hstart, hchars⟩, ?_⟩
      have hname : startsLikeNumber name.toList = false := by rw [htext, hnumber]
      rw [readAtom_eq_readName hname hconstant]
      simp only [readName, htext, hnumber, Bool.false_eq_true, if_false]
      split
      · exact absurd rfl hcolon
      · exact absurd rfl hcolon
      · rfl

theorem fromLexeme_keyword_iff {name : String} :
    (Datum.keyword name).FromLexeme ↔ isKeywordName name = true := by
  rw [fromLexeme_iff_of_isNamed rfl]
  constructor
  · rintro ⟨text, hlexeme, hread⟩
    obtain ⟨-, hname⟩ := readName_of_readAtom hread rfl
    obtain ⟨c, cs, htext, -, ⟨-, hsymbol⟩ | ⟨-, hhead, hkeyword⟩⟩ := readName_eq_ok hname rfl
    · cases hsymbol
    · cases hkeyword
      obtain ⟨d, ds, htext', -, hchars⟩ := isLexeme_atom_iff.1 hlexeme
      obtain ⟨rfl, rfl⟩ := List.cons.inj (htext.symm.trans htext')
      rw [isKeywordName, String.toList_ofList, hchars, Bool.true_and, bne_iff_ne]
      exact hhead
  · intro h
    rw [isKeywordName, Bool.and_eq_true, bne_iff_ne] at h
    obtain ⟨hchars, hhead⟩ := h
    obtain ⟨text, htext⟩ : ∃ text : String, text.toList = ':' :: name.toList :=
      ⟨String.ofList (':' :: name.toList), String.toList_ofList⟩
    refine ⟨text, isLexeme_atom_iff.2 ⟨':', name.toList, htext, by decide, hchars⟩, ?_⟩
    have hnumber : startsLikeNumber text.toList = false := by
      rw [htext]
      cases name.toList with
      | nil => decide
      | cons c cs =>
        have hcolon : Text.isDigitLike ':' = false := by decide
        rw [startsLikeNumber, hcolon]
        rfl
    have hconstant : text ∉ ["nil", "true", "false"] := by
      intro hmem
      simp only [List.mem_cons, List.not_mem_nil, or_false] at hmem
      rcases hmem with rfl | rfl | rfl <;> cases htext
    rw [readAtom_eq_readName hnumber hconstant]
    rw [htext] at hnumber
    simp only [readName, htext, hnumber, Bool.false_eq_true, if_false]
    split
    · next heq => exact absurd (by rw [heq, List.head?_cons]) hhead
    · rw [String.ofList_toList]
    · next hfirst _ => exact absurd rfl hfirst

end PageForms.Reader
