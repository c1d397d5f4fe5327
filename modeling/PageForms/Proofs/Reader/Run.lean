import PageForms.Proofs.Datum.Lexemes
import PageForms.Proofs.Except
import PageForms.Reader.Basic

/-!
# Runs of the reader

`Runs stack ts stack' vs` says that taking the tokens `ts` one after the other leads from one stack
of unfinished data to another and completes the data `vs`. Reading all data of a token list is a
run that starts and ends with the empty stack. `step_cases` lists everything one token can do.
-/

namespace PageForms.Reader

open Token (lexeme)

/-- The tokens lead from one stack to another, and `vs` are the results on the way. -/
inductive Runs : List Frame → List Token → List Frame → List Datum → Prop
  | nil {stack} : Runs stack [] stack []
  | cons {stack t stack₁ out ts stack₂ vs} :
      step stack t = .ok (stack₁, out) → Runs stack₁ ts stack₂ vs →
        Runs stack (t :: ts) stack₂ (out.toList ++ vs)

theorem Runs.single {stack stack' : List Frame} {t : Token} {out : Option Datum}
    (h : step stack t = .ok (stack', out)) : Runs stack [t] stack' out.toList := by
  have hrun := Runs.cons h .nil
  rwa [List.append_nil] at hrun

theorem Runs.append {s₁ s₂ s₃ : List Frame} {ts us : List Token} {vs ws : List Datum}
    (h₁ : Runs s₁ ts s₂ vs) (h₂ : Runs s₂ us s₃ ws) : Runs s₁ (ts ++ us) s₃ (vs ++ ws) := by
  induction h₁ with
  | nil => exact h₂
  | cons hstep _ ih =>
      rw [List.append_assoc]
      exact .cons hstep (ih h₂)

private theorem runs_of_readAllFrom {stack : List Frame} {ts : List Token} {vs : List Datum}
    (h : (readAllFrom stack ts).result = .ok vs) : Runs stack ts [] vs := by
  induction ts generalizing stack vs with
  | nil =>
      unfold readAllFrom at h
      split at h
      · next hempty =>
        rw [List.isEmpty_iff] at hempty
        subst hempty
        cases h
        exact .nil
      · cases h
  | cons t ts ih =>
      unfold readAllFrom at h
      split at h
      · cases h
      · next stack₁ hstep => exact .cons hstep (ih h)
      · next stack₁ v hstep =>
        simp only at h
        cases hmore : (readAllFrom stack₁ ts).result with
        | error e =>
            rw [hmore] at h
            cases h
        | ok ws =>
            rw [hmore] at h
            cases h
            exact .cons hstep (ih hmore)

private theorem Runs.readAllFrom_eq {stack : List Frame} {ts : List Token} {vs : List Datum}
    (h : Runs stack ts [] vs) : (readAllFrom stack ts).result = .ok vs := by
  generalize hend : ([] : List Frame) = last at h
  induction h with
  | nil =>
      subst hend
      rfl
  | @cons stack t stack₁ out ts stack₂ vs hstep _ ih =>
      unfold readAllFrom
      rw [hstep]
      cases out with
      | none => exact ih hend
      | some v =>
          simp only [ih hend]
          rfl

/-- Reading all data is a run from the empty stack to the empty stack. -/
theorem readAll_eq_ok_iff {ts : List Token} {vs : List Datum} :
    (readAll ts).result = .ok vs ↔ Runs [] ts [] vs :=
  ⟨runs_of_readAllFrom, Runs.readAllFrom_eq⟩

theorem read_eq_ok_iff {text : String} {vs : List Datum} :
    read text = .ok vs ↔ ∃ ts, Token.lex text = .ok ts ∧ Runs [] ts [] vs := by
  unfold read
  cases hlex : Token.lex text with
  | error e =>
      constructor
      · intro h
        cases h
      · rintro ⟨ts, hts, _⟩
        cases hts
  | ok ts =>
      constructor
      · intro h
        exact ⟨ts, rfl, readAll_eq_ok_iff.1 h⟩
      · rintro ⟨us, hus, hrun⟩
        cases hus
        exact readAll_eq_ok_iff.2 hrun

/-! ## What one token does -/

theorem step_of_opens? {t : Token} {bracket : Bracket} (h : opens? t.kind = some bracket)
    (stack : List Frame) : step stack t = .ok (.group t bracket [] :: stack, none) := by
  unfold step
  rw [h]

theorem step_of_wraps? {t : Token} {head : String} (h : wraps? t.kind = some head)
    (stack : List Frame) : step stack t = .ok (.wrap head :: stack, none) := by
  have hopens : opens? t.kind = none := by
    unfold wraps? at h
    split at h <;> simp_all [opens?]
  unfold step
  rw [hopens, h]

theorem step_of_discard {t : Token} (h : t.kind = .discard) (stack : List Frame) :
    step stack t = .ok (.discard :: stack, none) := by
  unfold step
  rw [h]
  rfl

theorem step_of_atomValue? {t : Token} {value : Except Fault Datum}
    (h : atomValue? t = some value) (stack : List Frame) :
    step stack t = supply stack <$> value := by
  have hopens : opens? t.kind = none := by
    unfold atomValue? at h
    split at h <;> simp_all [opens?]
  have hwraps : wraps? t.kind = none := by
    unfold atomValue? at h
    split at h <;> simp_all [wraps?]
  have hdiscard : t.kind ≠ .discard := by
    unfold atomValue? at h
    split at h <;> simp_all
  unfold step
  rw [hopens, hwraps]
  simp only
  rw [if_neg hdiscard, h]

theorem step_of_closer {t opener : Token} {bracket : Bracket} (h : t.kind = bracket.closer)
    (items : List Datum) (stack : List Frame) :
    step (.group opener bracket items :: stack) t =
      supply stack <$> closeGroup opener.place bracket items.reverse := by
  have hkind : t.kind = .closeParen ∨ t.kind = .closeBracket ∨ t.kind = .closeBrace := by
    rw [h]
    cases bracket with
    | map => exact .inr (.inr rfl)
    | seq shape => cases shape <;> simp [Bracket.closer]
  have hatom : atomValue? t = none := by
    unfold atomValue?
    rcases hkind with hk | hk | hk <;> rw [hk]
  unfold step
  rw [hatom]
  simp only [h, if_true]
  rcases hkind with hk | hk | hk <;> rw [← h, hk] <;> rfl

/-- Everything that one token can do. -/
theorem step_cases {stack stack' : List Frame} {t : Token} {out : Option Datum}
    (h : step stack t = .ok (stack', out)) :
    (∃ bracket, opens? t.kind = some bracket ∧ stack' = .group t bracket [] :: stack ∧
      out = none) ∨
    (∃ head, wraps? t.kind = some head ∧ stack' = .wrap head :: stack ∧ out = none) ∨
    (t.kind = .discard ∧ stack' = .discard :: stack ∧ out = none) ∨
    (∃ v, atomValue? t = some (.ok v) ∧ (stack', out) = supply stack v) ∨
    (∃ opener bracket items rest v, stack = .group opener bracket items :: rest ∧
      t.kind = bracket.closer ∧ closeGroup opener.place bracket items.reverse = .ok v ∧
      (stack', out) = supply rest v) := by
  unfold step at h
  split at h
  · next bracket hopens =>
    cases h
    exact .inl ⟨bracket, hopens, rfl, rfl⟩
  split at h
  · next head hwraps =>
    cases h
    exact .inr (.inl ⟨head, hwraps, rfl, rfl⟩)
  split at h
  · next hdiscard =>
    cases h
    exact .inr (.inr (.inl ⟨hdiscard, rfl, rfl⟩))
  split at h
  · next value hvalue =>
    obtain ⟨v, rfl, hv⟩ := map_eq_ok h
    exact .inr (.inr (.inr (.inl ⟨v, hvalue, hv.symm⟩)))
  split at h
  · next opener bracket items rest =>
    split at h
    · next hcloser =>
      obtain ⟨v, hclose, hv⟩ := map_eq_ok h
      exact .inr (.inr (.inr (.inr ⟨opener, bracket, items, rest, v, rfl, hcloser, hclose,
        hv.symm⟩)))
    · cases h
  · cases h

end PageForms.Reader
