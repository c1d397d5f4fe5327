import PageForms.Proofs.Token.Pattern

/-!
# Where the tokens of a text stand

Lexing cuts a text into tokens with gaps between them, and the place of each token is the line and
column of its offset. If there is a fault, it names the place of the first offset behind tokens and
gaps at which nothing matches.

The lexer knows only the place it has come to. `outcome_lexAt` adds the offset: at every step the
place is that of the offset, and what is left is the text from there on.
-/

namespace PageForms

namespace Text

/-- The line and column of an offset: the line feeds before it are counted, and the column is
counted from the last of them. -/
structure IsPlaceAt (text : List Char) (offset : Nat) (p : Position) : Prop where
  line : p.line = 1 + (text.take offset).count '\n'
  column :
    (∃ i < offset, text[i]? = some '\n' ∧ (∀ j, i < j → j < offset → text[j]? ≠ some '\n') ∧
      p.column = offset - i) ∨
    ((∀ j < offset, text[j]? ≠ some '\n') ∧ p.column = offset + 1)

private theorem Position.next_newline (p : Position) : p.next '\n' = ⟨p.line + 1, 1⟩ := rfl

private theorem Position.next_of_ne {c : Char} (h : c ≠ '\n') (p : Position) :
    p.next c = ⟨p.line, p.column + 1⟩ := by
  rw [next, if_neg h]

private theorem isPlaceAt_zero (text : List Char) : IsPlaceAt text 0 .start := by
  refine ⟨rfl, .inr ⟨?_, rfl⟩⟩
  intro j hj
  omega

/-- One more character moves the place to that of the next offset. -/
theorem IsPlaceAt.next {text : List Char} {offset : Nat} {p : Position} {c : Char}
    (h : IsPlaceAt text offset p) (hc : text[offset]? = some c) :
    IsPlaceAt text (offset + 1) (p.next c) := by
  have hcount : (text.take (offset + 1)).count '\n' =
      (text.take offset).count '\n' + [c].count '\n' := by
    rw [List.take_add_one, hc, Option.toList_some, List.count_append]
  by_cases hbreak : c = '\n'
  · subst hbreak
    rw [Position.next_newline]
    refine ⟨?_, .inl ⟨offset, by omega, hc, fun j hj hj' => by omega, by simp⟩⟩
    rw [hcount, List.count_singleton_self, h.line, Nat.add_assoc]
  · have hother (j : Nat) (hj : j < offset → text[j]? ≠ some '\n') (hlt : j < offset + 1) :
        text[j]? ≠ some '\n' := by
      by_cases hlast : j = offset
      · subst hlast
        rw [hc]
        simpa using hbreak
      · exact hj (by omega)
    rw [Position.next_of_ne hbreak]
    refine ⟨?_, ?_⟩
    · rw [hcount, List.count_singleton, if_neg (by simpa using hbreak), h.line, Nat.add_zero]
    · rcases h.column with ⟨i, hi, hnewline, hlast, hcolumn⟩ | ⟨hnone, hcolumn⟩
      · refine .inl ⟨i, by omega, hnewline, fun j hij => hother j (hlast j hij), ?_⟩
        change p.column + 1 = offset + 1 - i
        omega
      · exact .inr ⟨fun j => hother j (hnone j), by rw [hcolumn]⟩

/-- Some characters more move the place to that of the offset behind them. -/
theorem IsPlaceAt.advance {text piece rest : List Char} {offset : Nat} {p : Position}
    (h : IsPlaceAt text offset p) (hpiece : text.drop offset = piece ++ rest) :
    IsPlaceAt text (offset + piece.length) (p.advance piece) := by
  induction piece generalizing offset p with
  | nil => exact h
  | cons c piece ih =>
      have hc : text[offset]? = some c := by
        rw [← List.head?_drop, hpiece]
        rfl
      have hrest : text.drop (offset + 1) = piece ++ rest := by
        rw [← List.drop_drop, hpiece]
        rfl
      have hnext := ih (h.next hc) hrest
      rwa [Nat.add_assoc, Nat.add_comm 1] at hnext

end Text

namespace Token

/-! ## Gaps, tokens and the text -/

/-- The characters are white space, commas and comments, before a text. A comment reaches up to the
next line feed, which it does not hold, or to the end. -/
inductive Separates : List Char → List Char → Prop
  | nil {rest : List Char} : Separates [] rest
  | separator {c : Char} {gap rest : List Char} (hc : isSeparator c = true)
      (h : Separates gap rest) : Separates (c :: gap) rest
  | comment {body gap rest : List Char} (hbody : ∀ d ∈ body, d ≠ '\n')
      (hend : ∀ d, (gap ++ rest).head? = some d → d = '\n') (h : Separates gap rest) :
      Separates (';' :: (body ++ gap)) rest

/-- The token stands at the offset: its text does, as the longest match there, and its place is that
of the offset. -/
structure StandsAt (text : List Char) (offset : Nat) (t : Token) : Prop
    extends IsLongest (some t.kind) t.text.toList (text.drop offset) where
  place : Text.IsPlaceAt text offset t.place

/-- From some offset on, the text consists of the tokens, which stand at the given offsets, and gaps
before, between and behind them. -/
inductive Cut (text : List Char) : Nat → List Token → List Nat → Prop
  | done {start : Nat} (hgap : Separates (text.drop start) []) : Cut text start [] []
  | token {start offset : Nat} {t : Token} {ts : List Token} {offsets : List Nat}
      (hle : start ≤ offset) (hgap : Separates (text.extract start offset) (text.drop offset))
      (htoken : StandsAt text offset t) (hrest : Cut text (offset + t.text.length) ts offsets) :
      Cut text start (t :: ts) (offset :: offsets)

/-- From one offset the lexer gets to the other, each time behind the longest match. -/
inductive Boundary (text : List Char) : Nat → Nat → Prop
  | here {start : Nat} : Boundary text start start
  | next {start offset : Nat} {kind? : Option TokenKind} {piece : List Char}
      (hpiece : IsLongest kind? piece (text.drop start))
      (h : Boundary text (start + piece.length) offset) : Boundary text start offset

/-- Of the offsets that the lexer gets to from another one, the first in the text at which nothing
matches. -/
structure FirstUnmatched (text : List Char) (start offset : Nat) : Prop where
  inside : offset < text.length
  boundary : Boundary text start offset
  unmatched : Unmatched (text.drop offset)
  first : ∀ o, Boundary text start o → o < offset → ¬Unmatched (text.drop o)

private theorem separates_append {gap gap' rest : List Char}
    (hgap : ∀ c ∈ gap, isSeparator c = true)
    (h : Separates gap' rest) : Separates (gap ++ gap') rest := by
  induction gap with
  | nil => exact h
  | cons c gap ih =>
      obtain ⟨hc, hgap⟩ := List.forall_mem_cons.1 hgap
      exact .separator hc (ih hgap)

/-- What the lexer skips makes the gap behind it longer. -/
theorem separates_of_lexeme? {c : Char} {cs gap rest : List Char} {n : Nat}
    (hlexeme : lexeme? c cs = some (none, n)) (hrest : cs.drop n = gap ++ rest)
    (h : Separates gap rest) : Separates (c :: cs.take n ++ gap) rest := by
  rcases lexeme?_skip_cases hlexeme with ⟨hc, rfl⟩ | ⟨rfl, rfl⟩
  · rw [take_length_takeWhile]
    apply separates_append _ h
    exact List.forall_mem_cons.2 ⟨hc, List.all_eq_true.1 List.all_takeWhile⟩
  · rw [take_length_takeWhile]
    refine .comment (fun d hd => ?_) (fun d hd => ?_) h
    · simpa using List.all_eq_true.1 (List.all_takeWhile (p := (· != '\n'))) d hd
    · have hdrop : cs.drop (cs.takeWhile (· != '\n')).length = cs.dropWhile (· != '\n') :=
        List.append_cancel_left ((List.prefix_iff_eq_append.1 (List.takeWhile_prefix _)).trans
          List.takeWhile_append_dropWhile.symm)
      rw [← hrest, hdrop] at hd
      have hnot := List.head?_dropWhile_not (· != '\n') cs
      rw [hd] at hnot
      simpa using hnot

/-! ## One step of the lexer -/

private theorem Matches.ne_nil {kind? : Option TokenKind} {piece : List Char}
    (h : Matches kind? piece) :
    piece ≠ [] := by
  cases h with
  | fixed h =>
      have hall : fixedTexts.all (fun t => t.2 ≠ []) = true := by decide
      exact of_decide_eq_true (List.all_eq_true.1 hall _ h)
  | _ => exact List.cons_ne_nil _ _

private theorem extract_append_drop (text : List Char) {start offset : Nat} (h : start ≤ offset) :
    text.extract start offset ++ text.drop offset = text.drop start := by
  obtain ⟨n, rfl⟩ := Nat.exists_eq_add_of_le h
  rw [List.extract_eq_take_drop, Nat.add_sub_cancel_left, ← List.drop_drop, List.take_append_drop]

private theorem drop_add_length {text piece rest : List Char} {start : Nat}
    (h : text.drop start = piece ++ rest) : text.drop (start + piece.length) = rest := by
  rw [← List.drop_drop, h, List.drop_left]

private theorem Cut.pairwise {text : List Char} {start : Nat} {ts : List Token} {offsets : List Nat}
    (h : Cut text start ts offsets) :
    (∀ o ∈ offsets, start ≤ o) ∧ offsets.Pairwise (· < ·) := by
  induction h with
  | done => exact ⟨fun o ho => absurd ho List.not_mem_nil, .nil⟩
  | @token start offset t ts offsets hle _ htoken _ ih =>
      have hlength : 0 < t.text.length := by
        rw [← String.length_toList]
        exact List.length_pos_iff.2 htoken.fits.ne_nil
      refine ⟨List.forall_mem_cons.2 ⟨hle, fun o ho => ?_⟩, .cons (fun o ho => ?_) ih.2⟩
      · have hlater := ih.1 o ho
        omega
      · have hlater := ih.1 o ho
        omega

/-- What the lexer skips belongs to the gap before the next token. -/
theorem Cut.skip {text cs : List Char} {c : Char} {start n : Nat} {ts : List Token}
    {offsets : List Nat} (hlexeme : lexeme? c cs = some (none, n))
    (hpiece : text.drop start = c :: cs.take n ++ cs.drop n)
    (h : Cut text (start + (c :: cs.take n).length) ts offsets) : Cut text start ts offsets := by
  have hrest := drop_add_length hpiece
  cases h with
  | done hgap =>
      refine .done ?_
      rw [hpiece]
      apply separates_of_lexeme? hlexeme (List.append_nil _).symm
      rwa [hrest] at hgap
  | @token _ offset t ts offsets hle hgap htoken hcut =>
      refine .token (by omega) ?_ htoken hcut
      have hbehind := extract_append_drop text hle
      have hextract : text.extract start offset =
          c :: cs.take n ++ text.extract (start + (c :: cs.take n).length) offset := by
        -- the two gaps end at one offset, so it is enough to compare them with the rest behind it
        refine List.append_cancel_right (?_ : _ ++ text.drop offset = _ ++ text.drop offset)
        rw [extract_append_drop text (by omega), List.append_assoc, hbehind, hrest, hpiece]
      rw [hextract]
      exact separates_of_lexeme? hlexeme (hrest.symm.trans hbehind.symm) hgap

/-- The longest match is the first token, without a gap before it. -/
theorem Cut.push {text piece : List Char} {start : Nat} {kind : TokenKind} {place : Text.Position}
    {ts : List Token} {offsets : List Nat} (hpiece : IsLongest (some kind) piece (text.drop start))
    (hplace : Text.IsPlaceAt text start place) (h : Cut text (start + piece.length) ts offsets) :
    Cut text start (⟨kind, String.ofList piece, place⟩ :: ts) (start :: offsets) := by
  refine .token (Nat.le_refl start) ?_ ⟨?_, hplace⟩ ?_
  · rw [List.extract_eq_take_drop, Nat.sub_self, List.take_zero]
    exact .nil
  · rwa [String.toList_ofList]
  · rwa [String.length_ofList]

theorem Boundary.le {text : List Char} {start offset : Nat} (h : Boundary text start offset) :
    start ≤ offset := by
  induction h with
  | here => exact Nat.le_refl _
  | next _ _ ih => omega

/-- The first place without a match stays so from a match before it on: the longest match leaves one
way to go. -/
theorem FirstUnmatched.next {text piece : List Char} {start offset : Nat}
    {kind? : Option TokenKind} (hpiece : IsLongest kind? piece (text.drop start))
    (h : FirstUnmatched text (start + piece.length) offset) : FirstUnmatched text start offset := by
  refine ⟨h.inside, .next hpiece h.boundary, h.unmatched, fun o ho hlt => ?_⟩
  cases ho with
  | here => exact fun hnone => hnone kind? piece hpiece.front hpiece.fits
  | @next _ _ other? other hother ho =>
      have hlength : other.length = piece.length :=
        Nat.le_antisymm (hpiece.longest other? other hother.front hother.fits)
          (hother.longest kind? piece hpiece.front hpiece.fits)
      rw [hlength] at ho
      exact h.first o ho hlt

/-! ## Every run of the lexer -/

/-- What the lexer may answer from some offset on. -/
inductive Outcome (text : List Char) (start : Nat) : Except Fault (List Token) → Prop
  | tokens {ts : List Token} {offsets : List Nat} (h : Cut text start ts offsets) :
      Outcome text start (.ok ts)
  | fault {offset : Nat} {place : Text.Position} (h : FirstUnmatched text start offset)
      (hplace : Text.IsPlaceAt text offset place) :
      Outcome text start (.error (.illegalCharacter place
        (String.ofList ((text.drop offset).take 10))))

/-- The invariant of a run: the place is that of the offset from which the rest of the text is
left. -/
theorem outcome_lexAt {text cs : List Char} {start : Nat} {place : Text.Position}
    (hcs : text.drop start = cs) (hplace : Text.IsPlaceAt text start place) :
    Outcome text start (lexAt place cs) := by
  match cs with
  | [] =>
      rw [lexAt_nil]
      refine .tokens (.done ?_)
      rw [hcs]
      exact .nil
  | c :: cs =>
      rw [lexAt_cons]
      cases hlexeme : lexeme? c cs with
      | none =>
          have hunmatched := unmatched_of_lexeme? hlexeme
          rw [← hcs] at hunmatched ⊢
          have hinside : start < text.length := by
            have hlength := congrArg List.length hcs
            rw [List.length_drop, List.length_cons] at hlength
            omega
          exact .fault ⟨hinside, .here, hunmatched, fun o ho hlt => absurd ho.le (by omega)⟩ hplace
      | some found =>
          obtain ⟨kind?, n⟩ := found
          have hpiece : text.drop start = c :: cs.take n ++ cs.drop n := by
            rw [hcs, List.cons_append, List.take_append_drop]
          have hlongest := isLongest_of_lexeme? hlexeme
          rw [← hcs] at hlongest
          -- the rest of the text is read from the offset behind the piece
          have ih := outcome_lexAt (drop_add_length hpiece) (hplace.advance hpiece)
          dsimp only
          cases hrest : lexAt (place.advance (c :: cs.take n)) (cs.drop n) with
          | error e =>
              rw [hrest] at ih
              cases ih with
              | fault h hplace => exact .fault (h.next hlongest) hplace
          | ok tokens =>
              rw [hrest] at ih
              cases ih with
              | tokens h =>
                  cases kind? with
                  | none => exact .tokens (h.skip hlexeme hpiece)
                  | some kind => exact .tokens (h.push hlongest hplace)
termination_by cs.length
decreasing_by
  simp only [List.length_drop, List.length_cons]
  omega

/-- Lexing cuts a text into tokens at increasing offsets with gaps between them, each token at its
own line and column. It fails only at the first offset behind tokens and gaps where nothing matches,
and then it names the line and column of that offset. -/
theorem lex_partition (text : String) :
    (∀ ts, lex text = .ok ts →
      ∃ offsets : List Nat, offsets.Pairwise (· < ·) ∧ Cut text.toList 0 ts offsets) ∧
    ∀ e, lex text = .error e →
      ∃ offset place,
        e = .illegalCharacter place (String.ofList ((text.toList.drop offset).take 10)) ∧
        FirstUnmatched text.toList 0 offset ∧ Text.IsPlaceAt text.toList offset place := by
  have houtcome : Outcome text.toList 0 (lex text) :=
    outcome_lexAt List.drop_zero (Text.isPlaceAt_zero text.toList)
  constructor
  · intro ts hts
    rw [hts] at houtcome
    cases houtcome with
    | tokens h => exact ⟨_, h.pairwise.2, h⟩
  · intro e he
    rw [he] at houtcome
    cases houtcome with
    | fault h hplace => exact ⟨_, _, rfl, h, hplace⟩

/-- A string over two lines, a comment with a comma in it and the name of a character; then a string
that is not closed, behind a comment. -/
theorem lex_partition_lines :
    (∃ ts, ∃ offsets : List Nat, lex "(a \"x\ny\" ;c, d\n\t\\newline,b" = .ok ts ∧
      ts.map (·.place) = [⟨1, 1⟩, ⟨1, 2⟩, ⟨1, 4⟩, ⟨3, 2⟩, ⟨3, 11⟩] ∧ offsets.Pairwise (· < ·) ∧
      Cut "(a \"x\ny\" ;c, d\n\t\\newline,b".toList 0 ts offsets) ∧
    ∃ offset, lex "a ;(\n \"b" = .error (.illegalCharacter ⟨2, 2⟩ "\"b") ∧
      FirstUnmatched "a ;(\n \"b".toList 0 offset ∧
      Text.IsPlaceAt "a ;(\n \"b".toList offset ⟨2, 2⟩ := by
  have htokens : lex "(a \"x\ny\" ;c, d\n\t\\newline,b" = .ok [⟨.openParen, "(", ⟨1, 1⟩⟩,
      ⟨.atom, "a", ⟨1, 2⟩⟩, ⟨.string, "\"x\ny\"", ⟨1, 4⟩⟩, ⟨.character, "\\newline", ⟨3, 2⟩⟩,
      ⟨.atom, "b", ⟨3, 11⟩⟩] := by
    decide +kernel
  have hfault : lex "a ;(\n \"b" = .error (.illegalCharacter ⟨2, 2⟩ "\"b") := by
    decide +kernel
  obtain ⟨offsets, hlt, hcut⟩ := (lex_partition _).1 _ htokens
  obtain ⟨offset, place, heq, hfirst, hplace⟩ := (lex_partition _).2 _ hfault
  injection heq with heq
  subst heq
  exact ⟨⟨_, offsets, htokens, rfl, hlt, hcut⟩, offset, hfault, hfirst, hplace⟩

end Token

end PageForms
