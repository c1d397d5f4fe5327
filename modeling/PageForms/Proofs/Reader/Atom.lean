import PageForms.Reader.Basic

/-!
# The values of atoms

`readAtom_cases` lists everything an atom can be read as. In each case but that of a number the
value is written as the atom it was read from.
-/

namespace PageForms.Reader

private theorem readName_cases {text : String} {v : Datum} (h : readName text = .ok v) :
    v = .literal text ∨ (∃ name, v = .keyword name ∧ text = ":" ++ name) ∨ v = .symbol text := by
  unfold readName at h
  split at h
  · cases h
  · next c cs htext =>
    split at h
    · cases h
      exact .inl rfl
    · split at h
      · cases h
        exact .inl rfl
      · cases h
        refine .inr (.inl ⟨_, rfl, ?_⟩)
        rw [← String.toList_inj, htext, String.toList_append, String.toList_ofList,
          String.toList_ofList]
        rfl
      · cases h
        exact .inr (.inr rfl)

/-- Everything an atom can be read as. -/
theorem readAtom_cases {text : String} {v : Datum} (h : readAtom text = .ok v) :
    (v = .nil ∧ text = "nil") ∨ (v = .bool true ∧ text = "true") ∨
    (v = .bool false ∧ text = "false") ∨ (∃ n, v = .int n) ∨
    (∃ d, Binary64.decimal? text.toList = some d ∧ v = .float d.toBinary64) ∨
    v = .literal text ∨ (∃ name, v = .keyword name ∧ text = ":" ++ name) ∨ v = .symbol text := by
  unfold readAtom at h
  split at h
  · next hnil =>
    cases h
    exact .inl ⟨rfl, hnil⟩
  split at h
  · next htrue =>
    cases h
    exact .inr (.inl ⟨rfl, htrue⟩)
  split at h
  · next hfalse =>
    cases h
    exact .inr (.inr (.inl ⟨rfl, hfalse⟩))
  split at h
  · next n _ =>
    cases h
    exact .inr (.inr (.inr (.inl ⟨n, rfl⟩)))
  split at h
  · next negative digits _ =>
    unfold ofDigits at h
    split at h
    · cases h
      exact .inr (.inr (.inr (.inl ⟨_, rfl⟩)))
    · cases h
  split at h
  · next d hd =>
    cases h
    exact .inr (.inr (.inr (.inr (.inl ⟨d, hd, rfl⟩))))
  · exact .inr (.inr (.inr (.inr (.inr (readName_cases h)))))

theorem isCollection_of_readAtom {text : String} {v : Datum} (h : readAtom text = .ok v) :
    v.isCollection = false := by
  rcases readAtom_cases h with ⟨rfl, _⟩ | ⟨rfl, _⟩ | ⟨rfl, _⟩ | ⟨n, rfl⟩ | ⟨d, _, rfl⟩ | rfl |
    ⟨name, rfl, _⟩ | rfl <;> rfl

/-- Everything a token that is a datum by itself can be. -/
theorem atomValue?_cases {t : Token} {v : Datum} (h : atomValue? t = some (.ok v)) :
    (t.kind = .string ∧ ∃ s, v = .str s) ∨
    ((t.kind = .metadata ∨ t.kind = .regex ∨ t.kind = .character) ∧ v = .literal t.text) ∨
    (t.kind = .atom ∧ readAtom t.text = .ok v) := by
  unfold atomValue? at h
  split at h
  · next hkind =>
    refine .inl ⟨hkind, ?_⟩
    cases hbody : Text.unquote ((t.text.toList.drop 1).dropLast) with
    | error e =>
        rw [hbody] at h
        cases h
    | ok cs =>
        rw [hbody] at h
        cases h
        exact ⟨_, rfl⟩
  · next hkind =>
    cases h
    exact .inr (.inl ⟨.inl hkind, rfl⟩)
  · next hkind =>
    cases h
    exact .inr (.inl ⟨.inr (.inl hkind), rfl⟩)
  · next hkind =>
    cases h
    exact .inr (.inl ⟨.inr (.inr hkind), rfl⟩)
  · next hkind => exact .inr (.inr ⟨hkind, Option.some.inj h⟩)
  · cases h

theorem isCollection_of_atomValue? {t : Token} {v : Datum} (h : atomValue? t = some (.ok v)) :
    v.isCollection = false := by
  rcases atomValue?_cases h with ⟨_, s, rfl⟩ | ⟨_, rfl⟩ | ⟨_, hatom⟩
  · rfl
  · rfl
  · exact isCollection_of_readAtom hatom

end PageForms.Reader
