import Mathlib.Data.List.Forall2
import PageForms.Proofs.Reader.ReadBack

/-!
# Reading does not depend on places

Where a token stands shows only in the faults. Two texts that consist of the same lexemes are
therefore read as the same data, or neither is read: running the reader on both at once, the two
stacks differ at most in where their groups were opened.
-/

namespace PageForms.Reader

open Token (Lexes lexeme)

/-- The frames differ at most in the token that opened the group. -/
inductive Frame.Alike : Frame → Frame → Prop
  | group {opener opener' bracket items} :
      Alike (.group opener bracket items) (.group opener' bracket items)
  | wrap {head} : Alike (.wrap head) (.wrap head)
  | discard : Alike .discard .discard

private theorem supply_alike {stack stack' : List Frame} (h : List.Forall₂ Frame.Alike stack stack')
    (v : Datum) :
    (supply stack v).2 = (supply stack' v).2 ∧
      List.Forall₂ Frame.Alike (supply stack v).1 (supply stack' v).1 := by
  induction h generalizing v with
  | nil => exact ⟨rfl, .nil⟩
  | cons hframe hrest ih =>
      cases hframe with
      | group => exact ⟨rfl, .cons .group hrest⟩
      | wrap => exact ih _
      | discard => exact ⟨rfl, hrest⟩

private theorem closeGroup_congr {place : Text.Position} {bracket : Bracket} {items : List Datum}
    {v : Datum} (h : closeGroup place bracket items = .ok v) (place' : Text.Position) :
    closeGroup place' bracket items = .ok v := by
  cases bracket with
  | seq shape => exact h
  | map =>
      obtain ⟨es, rfl, rfl, hes⟩ := buildMap_eq_ok h
      exact buildMap_items hes place'

private theorem atomValue?_congr {t u : Token} (h : lexeme t = lexeme u) :
    atomValue? t = atomValue? u := by
  obtain ⟨hkind, htext⟩ := Prod.mk.inj h
  unfold atomValue?
  rw [hkind, htext]

/-- Tokens that differ only in their places do the same to stacks that are alike. -/
theorem step_alike {stack stack' stack₁ : List Frame} {t u : Token} {out : Option Datum}
    (hstack : List.Forall₂ Frame.Alike stack stack') (htu : lexeme t = lexeme u)
    (h : step stack t = .ok (stack₁, out)) :
    ∃ stack₁', step stack' u = .ok (stack₁', out) ∧ List.Forall₂ Frame.Alike stack₁ stack₁' := by
  have hkind : t.kind = u.kind := (Prod.mk.inj htu).1
  rcases step_cases h with ⟨bracket, hopens, rfl, rfl⟩ | ⟨head, hwraps, rfl, rfl⟩ |
    ⟨hdiscard, rfl, rfl⟩ | ⟨v, hv, heq⟩ |
    ⟨opener, bracket, items, rest, v, rfl, hcloser, hclose, heq⟩
  · rw [hkind] at hopens
    exact ⟨_, step_of_opens? hopens stack', .cons .group hstack⟩
  · rw [hkind] at hwraps
    exact ⟨_, step_of_wraps? hwraps stack', .cons .wrap hstack⟩
  · rw [hkind] at hdiscard
    exact ⟨_, step_of_discard hdiscard stack', .cons .discard hstack⟩
  · rw [atomValue?_congr htu] at hv
    obtain ⟨rfl, rfl⟩ := Prod.mk.inj heq
    obtain ⟨hout, hstack₁⟩ := supply_alike hstack v
    refine ⟨_, ?_, hstack₁⟩
    rw [step_of_atomValue? hv, hout]
    rfl
  · rw [hkind] at hcloser
    obtain ⟨rfl, rfl⟩ := Prod.mk.inj heq
    cases hstack with
    | cons hframe hrest =>
        cases hframe with
        | @group _ opener' _ _ =>
            obtain ⟨hout, hstack₁⟩ := supply_alike hrest v
            refine ⟨_, ?_, hstack₁⟩
            rw [step_of_closer hcloser, closeGroup_congr hclose, hout]
            rfl

theorem Runs.alike {stack stack' last : List Frame} {ts us : List Token} {vs : List Datum}
    (h : Runs stack ts last vs) (hstack : List.Forall₂ Frame.Alike stack stack')
    (htu : ts.map lexeme = us.map lexeme) :
    ∃ last', Runs stack' us last' vs ∧ List.Forall₂ Frame.Alike last last' := by
  induction h generalizing stack' us with
  | nil =>
      obtain rfl : us = [] := by simpa using htu.symm
      exact ⟨stack', .nil, hstack⟩
  | @cons stack t stack₁ out ts stack₂ vs hstep _ ih =>
      cases us with
      | nil => cases htu
      | cons u us =>
          obtain ⟨hhead, htail⟩ := List.cons.inj htu
          obtain ⟨stack₁', hstep', hstack₁⟩ := step_alike hstack hhead hstep
          obtain ⟨last', hrun, hlast⟩ := ih hstack₁ htail
          exact ⟨last', .cons hstep' hrun, hlast⟩

/-- What is read depends only on the lexemes of the text. -/
theorem read_congr {a b : String} {ls : List Token.Lexeme} (ha : Lexes a.toList ls)
    (hb : Lexes b.toList ls) {vs : List Datum} (h : read a = .ok vs) : read b = .ok vs := by
  obtain ⟨ts, hts, rfl⟩ := Token.lexes_iff.1 ha
  obtain ⟨us, hus, htu⟩ := Token.lexes_iff.1 hb
  obtain ⟨ts', hts', hrun⟩ := read_eq_ok_iff.1 h
  obtain rfl : ts = ts' := Except.ok.inj (hts.symm.trans hts')
  obtain ⟨last, hrun', hlast⟩ := hrun.alike .nil htu.symm
  cases hlast
  exact read_eq_ok_iff.2 ⟨us, hus, hrun'⟩

theorem readOne_eq_ok_iff {text : String} {v : Datum} :
    readOne text = .ok v ↔ read text = .ok [v] := by
  unfold readOne
  cases hread : read text with
  | error e =>
      constructor <;> intro h <;> cases h
  | ok vs =>
      constructor
      · intro h
        rcases vs with _ | ⟨w, _ | ⟨x, vs⟩⟩ <;> cases h
        rfl
      · intro h
        cases h
        rfl

end PageForms.Reader
