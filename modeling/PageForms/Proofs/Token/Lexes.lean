import PageForms.Token.Lexer

/-!
# Lexing as a relation

`Lexes cs ls` says that the characters `cs` are cut into the lexemes `ls`, a lexeme being a token
without its place. The relation holds exactly of what the lexer returns, whatever the place it
starts from, so that every argument about the order and the kinds of tokens can leave places out.
-/

namespace PageForms.Token

abbrev Lexeme := TokenKind × String

def lexeme (t : Token) : Lexeme :=
  (t.kind, t.text)

/-- The characters are cut into these lexemes. -/
inductive Lexes : List Char → List Lexeme → Prop
  | nil : Lexes [] []
  | skip {c cs n ls} :
      lexeme? c cs = some (none, n) → Lexes (cs.drop n) ls → Lexes (c :: cs) ls
  | token {c cs kind n ls} :
      lexeme? c cs = some (some kind, n) → Lexes (cs.drop n) ls →
        Lexes (c :: cs) ((kind, String.ofList (c :: cs.take n)) :: ls)

theorem lexAt_nil (place : Text.Position) : lexAt place [] = .ok [] := by
  unfold lexAt
  rfl

theorem lexAt_cons (place : Text.Position) (c : Char) (cs : List Char) :
    lexAt place (c :: cs) =
      match lexeme? c cs with
      | none => .error (.illegalCharacter place (String.ofList ((c :: cs).take 10)))
      | some (kind?, n) =>
        match lexAt (place.advance (c :: cs.take n)) (cs.drop n) with
        | .error e => .error e
        | .ok tokens =>
          match kind? with
          | none => .ok tokens
          | some kind => .ok (⟨kind, String.ofList (c :: cs.take n), place⟩ :: tokens) := by
  exact lexAt.eq_def place (c :: cs)

theorem lexes_of_lexAt {place : Text.Position} {cs : List Char} {ts : List Token}
    (h : lexAt place cs = .ok ts) : Lexes cs (ts.map lexeme) := by
  match cs with
  | [] =>
      rw [lexAt_nil] at h
      cases h
      exact .nil
  | c :: cs =>
      rw [lexAt_cons] at h
      cases hlexeme : lexeme? c cs with
      | none =>
          rw [hlexeme] at h
          cases h
      | some found =>
          obtain ⟨kind?, n⟩ := found
          rw [hlexeme] at h
          cases hrest : lexAt (place.advance (c :: cs.take n)) (cs.drop n) with
          | error e =>
              simp only [hrest] at h
              cases h
          | ok tokens =>
              have ih := lexes_of_lexAt hrest
              simp only [hrest] at h
              cases kind? with
              | none =>
                  cases h
                  exact .skip hlexeme ih
              | some kind =>
                  cases h
                  exact .token hlexeme ih
termination_by cs.length
decreasing_by
  simp only [List.length_drop, List.length_cons]
  omega

private theorem Lexes.exists_lexAt {cs : List Char} {ls : List Lexeme} (h : Lexes cs ls)
    (place : Text.Position) : ∃ ts, lexAt place cs = .ok ts ∧ ts.map lexeme = ls := by
  induction h generalizing place with
  | nil => exact ⟨[], lexAt_nil place, rfl⟩
  | @skip c cs n ls hsome _ ih =>
      obtain ⟨ts, hts, hmap⟩ := ih (place.advance (c :: cs.take n))
      refine ⟨ts, ?_, hmap⟩
      rw [lexAt_cons, hsome]
      simp only [hts]
  | @token c cs kind n ls hsome _ ih =>
      obtain ⟨ts, hts, hmap⟩ := ih (place.advance (c :: cs.take n))
      refine ⟨⟨kind, String.ofList (c :: cs.take n), place⟩ :: ts, ?_, ?_⟩
      · rw [lexAt_cons, hsome]
        simp only [hts]
      · rw [List.map_cons, hmap]
        rfl

/-- The lexer returns exactly the lexemes a text is cut into. -/
theorem lexes_iff {text : String} {ls : List Lexeme} :
    Lexes text.toList ls ↔ ∃ ts, lex text = .ok ts ∧ ts.map lexeme = ls := by
  constructor
  · intro h
    exact h.exists_lexAt .start
  · rintro ⟨ts, hts, rfl⟩
    exact lexes_of_lexAt hts

/-! ## Separators and brackets -/

theorem lexes_separator_cons {c : Char} {cs : List Char} {ls : List Lexeme}
    (hc : isSeparator c = true) (h : Lexes cs ls) : Lexes (c :: cs) ls := by
  have hfirst : lexeme? c cs = some (none, (cs.takeWhile isSeparator).length) := by
    unfold lexeme?
    rw [if_pos hc]
  refine .skip hfirst ?_
  cases cs with
  | nil => exact h
  | cons d ds =>
      by_cases hd : isSeparator d = true
      · -- the run of separators that starts at `d` is the one that starts at `c`, less one
        have hsecond : lexeme? d ds = some (none, (ds.takeWhile isSeparator).length) := by
          unfold lexeme?
          rw [if_pos hd]
        rw [List.takeWhile_cons, if_pos hd, List.length_cons, List.drop_succ_cons]
        cases h with
        | skip hsome hrest =>
            rw [hsecond] at hsome
            cases hsome
            exact hrest
        | token hsome hrest =>
            rw [hsecond] at hsome
            cases hsome
      · rw [List.takeWhile_cons, if_neg hd]
        exact h

theorem lexes_separators_append {seps cs : List Char} {ls : List Lexeme}
    (hseps : ∀ c ∈ seps, isSeparator c = true) (h : Lexes cs ls) : Lexes (seps ++ cs) ls := by
  induction seps with
  | nil => exact h
  | cons c seps ih =>
      apply lexes_separator_cons (hseps c (by simp))
      apply ih
      intro d hd
      exact hseps d (by simp [hd])

end PageForms.Token
