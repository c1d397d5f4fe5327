import PageForms.Proofs.Token.Boundary
import PageForms.Text.Quoted

/-!
# Quoted text

A quoted text is one lexeme, and what stands between its quotes is read as the text again.
-/

namespace PageForms.Text

open Token (closingQuote? closingQuote?_cons IsLexeme)

/-- A character is quoted by an escape that stands for it, or it is neither a quote nor a
backslash and stands for itself. -/
theorem quoteChar_cases (c : Char) :
    (∃ d, quoteChar c = ['\\', d] ∧ d ≠ 'u' ∧ escaped d = c) ∨
    (quoteChar c = [c] ∧ c ≠ '\x22' ∧ c ≠ '\\') := by
  unfold quoteChar
  split
  · next h => exact .inl ⟨'\\', rfl, by decide, h.symm⟩
  split
  · next h => exact .inl ⟨'\x22', rfl, by decide, h.symm⟩
  split
  · next h => exact .inl ⟨'n', rfl, by decide, h.symm⟩
  split
  · next h => exact .inl ⟨'t', rfl, by decide, h.symm⟩
  split
  · next h => exact .inl ⟨'r', rfl, by decide, h.symm⟩
  · next hbackslash hquote _ _ _ => exact .inr ⟨rfl, hquote, hbackslash⟩

private theorem unquote_quoteChar_append (c : Char) (cs : List Char) :
    unquote (quoteChar c ++ cs) = (c :: ·) <$> unquote cs := by
  rcases quoteChar_cases c with ⟨d, heq, hu, rfl⟩ | ⟨heq, _, hbackslash⟩
  · rw [heq, List.cons_append, List.singleton_append, unquote]
    · intro _ _ _ _ _ hd
      exact absurd hd hu
    · exact hu
  · rw [heq, List.singleton_append, unquote]
    · intro _ _ _ _ _ hc
      exact absurd hc hbackslash
    · intro _ hc
      exact absurd hc hbackslash
    · intro _ _ hc
      exact absurd hc hbackslash

private theorem unquote_flatMap_quoteChar (cs : List Char) :
    unquote (cs.flatMap quoteChar) = .ok cs := by
  induction cs with
  | nil => rfl
  | cons c cs ih =>
      rw [List.flatMap_cons, unquote_quoteChar_append, ih]
      rfl

private theorem closingQuote?_flatMap_quoteChar (cs r : List Char) :
    closingQuote? (cs.flatMap quoteChar ++ '\x22' :: r) =
      some ((cs.flatMap quoteChar).length + 1) := by
  induction cs with
  | nil => rfl
  | cons c cs ih =>
      rw [List.flatMap_cons, List.append_assoc, List.length_append]
      rcases quoteChar_cases c with ⟨d, heq, _, _⟩ | ⟨heq, hquote, hbackslash⟩
      · rw [heq, List.cons_append, List.singleton_append, closingQuote?, ih, Option.map_some]
        congr 1
        simp only [List.length_cons, List.length_nil]
        omega
      · rw [heq, List.singleton_append, closingQuote?_cons _ hquote hbackslash, ih,
          Option.map_some]
        congr 1
        simp only [List.length_cons, List.length_nil]
        omega

theorem toList_quote (s : String) :
    (quote s).toList = '\x22' :: (s.toList.flatMap quoteChar ++ ['\x22']) := by
  rw [quote, String.toList_ofList]
  rfl

/-- A quoted text is one lexeme. -/
theorem isLexeme_quote (s : String) : IsLexeme .string (quote s) := by
  refine ⟨_, _, toList_quote s, ?_⟩
  have hclose := closingQuote?_flatMap_quoteChar s.toList []
  rw [List.length_append, List.length_singleton]
  unfold Token.lexeme?
  rw [if_neg (by decide)]
  simp only [hclose, Option.map_some]

/-- What stands between the quotes of a quoted text is read as the text. -/
theorem unquote_quote (s : String) :
    unquote (((quote s).toList.drop 1).dropLast) = .ok s.toList := by
  rw [toList_quote, List.drop_succ_cons, List.drop_zero, List.dropLast_concat]
  exact unquote_flatMap_quoteChar s.toList

end PageForms.Text
