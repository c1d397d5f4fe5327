import PageForms.Proofs.Datum.DecEq
import PageForms.Proofs.Reader.Grammar

/-!
# Dropped data leave no trace

Where a token stands shows in the stack of unfinished data and nowhere else. A mark that drops the
next datum puts one frame on that stack, and the datum takes exactly this frame off again, whatever
lies below: a group, another mark, or nothing. So the reader is where it was, and what follows is
read as if the mark and the datum were not there.
-/

namespace PageForms.Reader

/-- A mark and the datum it drops lead from every stack back to it and complete nothing. -/
theorem runs_dropped {mark : Token} {dropped : List Token} {v : Datum}
    (hmark : mark.kind = .discard) (h : IsDatum dropped v) (stack : List Frame) :
    Runs stack (mark :: dropped) stack [] :=
  .cons (step_of_discard hmark stack) (h.delivers.completes (.discard :: stack))

/-- Tokens that are read alike from every stack are read alike behind the same tokens. -/
theorem result_readAllFrom_append {us ws : List Token}
    (h : ∀ stack, (readAllFrom stack us).result = (readAllFrom stack ws).result)
    (front : List Token) (stack : List Frame) :
    (readAllFrom stack (front ++ us)).result = (readAllFrom stack (front ++ ws)).result := by
  induction front generalizing stack with
  | nil => exact h stack
  | cons t front ih =>
      rw [List.cons_append, List.cons_append, readAllFrom, readAllFrom]
      cases hstep : step stack t with
      | error e => rfl
      | ok next =>
          obtain ⟨inner, out⟩ := next
          cases out with
          | none => exact ih inner
          | some v => simp only [ih inner]

/-- Between any two tokens, a mark with a datum behind it that it drops changes nothing in what is
read: neither the data, nor, where reading fails, the fault. -/
theorem readAll_insert_dropped {mark : Token} {dropped : List Token} {v : Datum}
    (hmark : mark.kind = .discard) (hdropped : readDatum dropped = ⟨.ok v, []⟩)
    (front back : List Token) :
    (readAll (front ++ [mark] ++ dropped ++ back)).result = (readAll (front ++ back)).result := by
  obtain ⟨used, hused, hdatum⟩ := readDatum_eq_ok_iff.1 hdropped
  rw [List.append_nil] at hused
  subst hused
  have hinvisible (stack : List Frame) :
      (readAllFrom stack ((mark :: dropped) ++ back)).result = (readAllFrom stack back).result := by
    rw [isReader_readAllFrom.append (runs_dropped hmark hdatum stack)]
  rw [List.append_assoc, List.append_assoc, List.singleton_append]
  exact result_readAllFrom_append hinvisible front []

/-- Between a quote and the datum it wraps, a datum is dropped that starts with a dropped one. -/
theorem readAll_insert_dropped_quoted :
    ∃ front mark dropped back,
      Token.lex "[a '" = .ok front ∧ Token.lex "#_" = .ok [mark] ∧
      Token.lex "#_x (y)" = .ok dropped ∧ Token.lex "b]" = .ok back ∧
      readDatum dropped = ⟨.ok (.form [.symbol "y"]), []⟩ ∧
      (readAll (front ++ [mark] ++ dropped ++ back)).result =
        .ok [.vector [.symbol "a", .call "quote" [.symbol "b"]]] := by
  have hfront : Token.lex "[a '" = .ok [⟨.openBracket, "[", ⟨1, 1⟩⟩, ⟨.atom, "a", ⟨1, 2⟩⟩,
      ⟨.quote, "'", ⟨1, 4⟩⟩] := by
    decide +kernel
  have hmark : Token.lex "#_" = .ok [⟨.discard, "#_", ⟨1, 1⟩⟩] := by decide +kernel
  have hdropped : Token.lex "#_x (y)" = .ok [⟨.discard, "#_", ⟨1, 1⟩⟩, ⟨.atom, "x", ⟨1, 3⟩⟩,
      ⟨.openParen, "(", ⟨1, 5⟩⟩, ⟨.atom, "y", ⟨1, 6⟩⟩, ⟨.closeParen, ")", ⟨1, 7⟩⟩] := by
    decide +kernel
  have hback : Token.lex "b]" = .ok [⟨.atom, "b", ⟨1, 1⟩⟩, ⟨.closeBracket, "]", ⟨1, 2⟩⟩] := by
    decide +kernel
  refine ⟨_, _, _, _, hfront, hmark, hdropped, hback, rfl, ?_⟩
  rw [readAll_insert_dropped rfl rfl]
  decide +kernel

end PageForms.Reader
