import PageForms.Proofs.Datum.Restorable
import PageForms.Proofs.Datum.Writable
import PageForms.Proofs.Reader.Placement

/-!
# Writing undoes reading

Whatever was read from a text is written as a text that is read as the same values, provided that
its numbers have texts: the integers are short enough and the others are finite. Laying the values
out to a margin changes nothing about this, because it keeps the lexemes.
-/

namespace PageForms

namespace Reader

/-- Reading the texts of values that were read gives the same values. -/
theorem read_joined_texts {text : String} {vs : List Datum} (h : read text = .ok vs)
    (hfinite : ∀ v ∈ vs, v.isFinite = true) (hwritable : ∀ v ∈ vs, v.writable = true) :
    ∃ texts, vs.mapM Datum.text? = .ok texts ∧ read (Text.joinWith " " texts) = .ok vs := by
  have hrestorable := Datum.restorable_of_read h hfinite hwritable
  refine ⟨vs.map Datum.write, Datum.mapM_text? hwritable, ?_⟩
  apply read_of_spells
  · exact fun v hv => (hrestorable v hv).readsBack
  · exact Token.spells_joinWith Token.isGap_space fun v hv => (hrestorable v hv).wellFormed.spells

theorem read_joined_texts_mixed :
    ∃ vs texts,
      read "(do #(f %) #_x \x7b:k 0x1F, \\( ::j\x7d) '#\x7b-0.0\x7d 1.50e3\"\\\"\\n\"^:export 1/2" =
        .ok vs ∧
      vs.mapM Datum.text? = .ok texts ∧ read (Text.joinWith " " texts) = .ok vs := by
  have h : read
      "(do #(f %) #_x \x7b:k 0x1F, \\( ::j\x7d) '#\x7b-0.0\x7d 1.50e3\"\\\"\\n\"^:export 1/2" =
      .ok [.call "do" [.seq .fn [.symbol "f", .symbol "%"],
          .map [(.keyword "k", .int 31), (.literal "\\(", .literal "::j")]],
        .call "quote" [.seq .set [.float (.finite true 0 (-1074))]],
        .float (.finite false 6597069766656000 (-42)), .str "\"\n", .literal "^:export",
        .literal "1/2"] := by
    decide +kernel
  obtain ⟨texts, htexts, hback⟩ := read_joined_texts h (by decide +kernel) (by decide +kernel)
  exact ⟨_, texts, h, htexts, hback⟩

/-- Laying out a value that was read, to any margin and from any column, gives the tokens of its
text on one line, apart from their places. So both texts are read as the same value, and this is the
value itself if its numbers are finite. -/
theorem tokens_layOut {text flat : String} {vs : List Datum} {v : Datum} (h : read text = .ok vs)
    (hv : v ∈ vs) (hflat : v.text? = .ok flat) (width indent : Int) :
    ∃ laid, v.layOut? width indent = .ok laid ∧
      (∃ ts us, Token.lex laid = .ok ts ∧ Token.lex flat = .ok us ∧
        ts.map Token.lexeme = us.map Token.lexeme) ∧
      (∀ u, readOne laid = .ok u ↔ readOne flat = .ok u) ∧
      (v.isFinite = true → readOne laid = .ok v) := by
  have hwell := wellFormed_of_read h v hv
  obtain ⟨hwritable, rfl⟩ := Datum.writable_of_text? hflat
  have hlaid := (hwell.spells_layOutAt width indent).lexes
  have hwrite := hwell.spells.lexes
  obtain ⟨ts, hts, htokens⟩ := Token.lexes_iff.1 hlaid
  obtain ⟨us, hus, hutokens⟩ := Token.lexes_iff.1 hwrite
  refine ⟨_, Datum.layOut?_of_writable hwritable width indent,
    ⟨ts, us, hts, hus, htokens.trans hutokens.symm⟩, ?_, ?_⟩
  · intro u
    rw [readOne_eq_ok_iff, readOne_eq_ok_iff]
    exact ⟨read_congr hlaid hwrite, read_congr hwrite hlaid⟩
  · intro hfinite
    rw [readOne_eq_ok_iff]
    apply read_of_spells
    · intro w hw
      rw [List.mem_singleton.1 hw]
      exact (Datum.restorable_of_wellFormed hwell hfinite hwritable).readsBack
    · rw [List.flatMap_cons, List.flatMap_nil, List.append_nil]
      exact hwell.spells_layOutAt width indent

theorem tokens_layOut_narrow :
    ∃ v laid, read "(f [\\( \\, 1/2] \x7b:a #(g %), \\space \"x y\"\x7d)" = .ok [v] ∧
      v.layOut? (-1) 3 = .ok laid ∧ readOne laid = .ok v := by
  have h : read "(f [\\( \\, 1/2] \x7b:a #(g %), \\space \"x y\"\x7d)" =
      .ok [.call "f" [.vector [.literal "\\(", .literal "\\,", .literal "1/2"],
        .map [(.keyword "a", .seq .fn [.symbol "g", .symbol "%"]),
          (.literal "\\space", .str "x y")]]] := by
    decide +kernel
  obtain ⟨laid, hlaid, -, -, hback⟩ :=
    tokens_layOut h (List.mem_singleton.2 rfl) (Datum.text?_of_writable (by decide)) (-1) 3
  exact ⟨_, laid, h, hlaid, hback (by decide)⟩

end Reader

end PageForms
