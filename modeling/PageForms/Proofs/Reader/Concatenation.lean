import PageForms.Proofs.Datum.DecEq
import PageForms.Proofs.Reader.Placement
import PageForms.Proofs.Token.Concatenation

/-!
# Reading one text behind another

Reading goes on from the stack that the tokens so far have left. After a text that is read as a
whole this stack is empty, as it is at the start, so what follows is read as if it stood alone: the
data of two texts on lines of their own are those of the first and those of the second.
-/

namespace PageForms.Reader

open Token (Lexes lexeme)

/-- A run along tokens that have been run already is a run along those behind them. -/
theorem Runs.append_iff {s₁ s₂ s₃ : List Frame} {ts us : List Token} {vs ws : List Datum}
    (h : Runs s₁ ts s₂ vs) :
    Runs s₁ (ts ++ us) s₃ ws ↔ ∃ more, ws = vs ++ more ∧ Runs s₂ us s₃ more := by
  constructor
  · intro hrun
    induction h generalizing ws with
    | nil => exact ⟨ws, rfl, hrun⟩
    | @cons stack t stack₁ out ts stack₂ vs hstep _ ih =>
        cases hrun with
        | cons hstep' hrest =>
            rw [hstep] at hstep'
            cases hstep'
            obtain ⟨more, rfl, hmore⟩ := ih hrest
            exact ⟨more, (List.append_assoc ..).symm, hmore⟩
  · rintro ⟨more, rfl, hmore⟩
    exact h.append hmore

/-- The data of a text depend on its lexemes alone, so any tokens with these lexemes tell them. -/
theorem read_eq_ok_iff_lexes {text : String} {vs : List Datum} :
    read text = .ok vs ↔
      ∃ ts, Lexes text.toList (ts.map lexeme) ∧ Runs [] ts [] vs := by
  rw [read_eq_ok_iff]
  constructor
  · rintro ⟨ts, hts, hrun⟩
    exact ⟨ts, Token.lexes_of_lexAt hts, hrun⟩
  · rintro ⟨ts, hlexes, hrun⟩
    obtain ⟨us, hus, hmap⟩ := Token.lexes_iff.1 hlexes
    obtain ⟨last, hrun', hlast⟩ := hrun.alike .nil hmap.symm
    cases hlast
    exact ⟨us, hus, hrun'⟩

/-- If a text can be read, then the text with another one behind a line break can be read exactly if
the other one can, and the data are those of the first followed by those of the second. -/
theorem read_append_newline {first : String} {vs : List Datum} (h : read first = .ok vs)
    (second : String) (ws : List Datum) :
    read (first ++ "\n" ++ second) = .ok ws ↔ ∃ us, read second = .ok us ∧ ws = vs ++ us := by
  obtain ⟨ts, hfirst, hrun⟩ := read_eq_ok_iff_lexes.1 h
  have hchars : (first ++ "\n" ++ second).toList = first.toList ++ '\n' :: second.toList := by
    rw [String.toList_append, String.toList_append, List.append_assoc]
    rfl
  rw [read_eq_ok_iff_lexes, hchars]
  constructor
  · rintro ⟨all, hall, hrunAll⟩
    obtain ⟨ms, hms, hsecond⟩ := hfirst.append_newline_iff.1 hall
    obtain ⟨ts', us, rfl, hts', rfl⟩ := List.map_eq_append_iff.1 hms
    -- the tokens in front are those of the first text, up to their places
    obtain ⟨last, hrun', hlast⟩ := hrun.alike .nil hts'.symm
    cases hlast
    obtain ⟨more, rfl, hmore⟩ := hrun'.append_iff.1 hrunAll
    exact ⟨more, read_eq_ok_iff_lexes.2 ⟨us, hsecond, hmore⟩, rfl⟩
  · rintro ⟨us, hread, rfl⟩
    obtain ⟨us', hsecond, hmore⟩ := read_eq_ok_iff_lexes.1 hread
    refine ⟨ts ++ us', ?_, hrun.append hmore⟩
    rw [List.map_append, hfirst.append_newline_iff]
    exact ⟨_, rfl, hsecond⟩

/-- The first text ends in a dropped datum and a comment, and the second one starts with a mark. -/
theorem read_append_newline_comment :
    ∃ vs us, read "[a] #_b ; (" = .ok vs ∧ read "'\\) #_#_c d ; \x22" = .ok us ∧
      read ("[a] #_b ; (" ++ "\n" ++ "'\\) #_#_c d ; \x22") = .ok (vs ++ us) ∧
      ∀ ws, read ("[a] #_b ; (" ++ "\n" ++ ")") ≠ .ok ws := by
  have hfirst : read "[a] #_b ; (" = .ok [.vector [.symbol "a"]] := by decide +kernel
  have hsecond : read "'\\) #_#_c d ; \x22" = .ok [.call "quote" [.literal "\\)"]] := by
    decide +kernel
  have hcloser : (read ")").isOk = false := by decide +kernel
  refine ⟨_, _, hfirst, hsecond, (read_append_newline hfirst _ _).2 ⟨_, hsecond, rfl⟩, ?_⟩
  intro ws hws
  obtain ⟨us, hus, -⟩ := (read_append_newline hfirst ")" ws).1 hws
  rw [hus] at hcloser
  cases hcloser

end PageForms.Reader
