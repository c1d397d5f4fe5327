import PageForms.Proofs.Reader.Atom
import PageForms.Proofs.Reader.MapItems
import PageForms.Proofs.Reader.Run

/-!
# Where data come from

Every value that is read is well formed, and each of its atoms is the value of some lexeme. The
argument is an invariant of the stack of unfinished data that `step` keeps: everything collected in
a group so far is well formed.
-/

namespace PageForms

open Token (lexeme IsLexeme)

/-- The atom is what some lexeme is read as. -/
def Datum.FromLexeme (v : Datum) : Prop :=
  ∃ t : Token, IsLexeme t.kind t.text ∧ Reader.atomValue? t = some (.ok v)

namespace Reader

/-- The unfinished datum can only become a well-formed one. -/
def Frame.Sound (p : Datum → Prop) : Frame → Prop
  | .group _ bracket items =>
    (∀ shape, bracket = .seq shape → shape.isBracketed = true) ∧ ∀ x ∈ items, x.WellFormed p
  | .wrap head => p (.symbol head)
  | .discard => True

private theorem wellFormed_call {p : Datum → Prop} {head : String} {v : Datum}
    (hhead : p (.symbol head)) (hv : v.WellFormed p) : (Datum.call head [v]).WellFormed p := by
  refine .seq rfl ?_
  intro x hx
  simp only [List.mem_cons, List.not_mem_nil, or_false] at hx
  rcases hx with rfl | rfl
  · exact .atom rfl hhead
  · exact hv

private theorem supply_sound {p : Datum → Prop} {stack : List Frame} {v : Datum}
    (hstack : ∀ f ∈ stack, f.Sound p) (hv : v.WellFormed p) :
    (∀ f ∈ (supply stack v).1, f.Sound p) ∧ ∀ w ∈ (supply stack v).2, w.WellFormed p := by
  induction stack generalizing v with
  | nil =>
      refine ⟨hstack, ?_⟩
      intro w hw
      cases hw
      exact hv
  | cons f stack ih =>
      have hf := hstack f (by simp)
      have hrest : ∀ g ∈ stack, g.Sound p := fun g hg => hstack g (by simp [hg])
      cases f with
      | group opener bracket items =>
          refine ⟨?_, ?_⟩
          · intro g hg
            rcases List.mem_cons.1 hg with rfl | hg
            · refine ⟨hf.1, ?_⟩
              intro x hx
              rcases List.mem_cons.1 hx with rfl | hx
              · exact hv
              · exact hf.2 x hx
            · exact hrest g hg
          · intro w hw
            cases hw
      | wrap head => exact ih hrest (wellFormed_call hf hv)
      | discard =>
          refine ⟨hrest, ?_⟩
          intro w hw
          cases hw

private theorem closeGroup_wellFormed {p : Datum → Prop} {place : Text.Position} {bracket : Bracket}
    {xs : List Datum} {v : Datum}
    (hbracket : ∀ shape, bracket = .seq shape → shape.isBracketed = true)
    (hxs : ∀ x ∈ xs, x.WellFormed p) (h : closeGroup place bracket xs = .ok v) :
    v.WellFormed p := by
  cases bracket with
  | seq shape =>
      cases h
      exact .seq (hbracket shape rfl) hxs
  | map =>
      obtain ⟨es, rfl, rfl, hes⟩ := buildMap_eq_ok h
      refine .map ?_ ?_ hes
      · intro e he
        exact hxs e.1 (List.mem_flatMap.2 ⟨e, he, by simp⟩)
      · intro e he
        exact hxs e.2 (List.mem_flatMap.2 ⟨e, he, by simp⟩)

theorem isBracketed_of_opens? {kind : TokenKind} {shape : Shape}
    (h : opens? kind = some (.seq shape)) : shape.isBracketed = true := by
  cases kind <;> simp only [opens?, Option.some.injEq, Bracket.seq.injEq, reduceCtorEq] at h <;>
    subst h <;> rfl

/-- One token keeps the stack sound and completes only well-formed data. -/
theorem step_sound {p : Datum → Prop} (hwrap : ∀ kind head, wraps? kind = some head →
      p (.symbol head))
    {stack stack' : List Frame} {t : Token} {out : Option Datum}
    (ht : ∀ v, atomValue? t = some (.ok v) → p v)
    (hstack : ∀ f ∈ stack, f.Sound p) (h : step stack t = .ok (stack', out)) :
    (∀ f ∈ stack', f.Sound p) ∧ ∀ w ∈ out, w.WellFormed p := by
  rcases step_cases h with ⟨bracket, hopens, rfl, rfl⟩ | ⟨head, hwraps, rfl, rfl⟩ |
    ⟨_, rfl, rfl⟩ | ⟨v, hv, heq⟩ | ⟨opener, bracket, items, rest, v, rfl, _, hclose, heq⟩
  · refine ⟨?_, by simp⟩
    intro f hf
    rcases List.mem_cons.1 hf with rfl | hf
    · refine ⟨?_, by simp⟩
      intro shape hshape
      rw [hshape] at hopens
      exact isBracketed_of_opens? hopens
    · exact hstack f hf
  · refine ⟨?_, by simp⟩
    intro f hf
    rcases List.mem_cons.1 hf with rfl | hf
    · exact hwrap t.kind head hwraps
    · exact hstack f hf
  · refine ⟨?_, by simp⟩
    intro f hf
    rcases List.mem_cons.1 hf with rfl | hf
    · trivial
    · exact hstack f hf
  · obtain ⟨rfl, rfl⟩ := Prod.mk.inj heq
    exact supply_sound hstack (.atom (isCollection_of_atomValue? hv) (ht v hv))
  · obtain ⟨rfl, rfl⟩ := Prod.mk.inj heq
    have hgroup := hstack _ (List.mem_cons_self ..)
    apply supply_sound (fun f hf => hstack f (by simp [hf]))
    apply closeGroup_wellFormed hgroup.1 _ hclose
    intro x hx
    exact hgroup.2 x (List.mem_reverse.1 hx)

/-- A run that starts with a sound stack completes only well-formed data. -/
theorem Runs.sound {p : Datum → Prop} (hwrap : ∀ kind head, wraps? kind = some head →
      p (.symbol head))
    {stack stack' : List Frame} {ts : List Token} {vs : List Datum}
    (h : Runs stack ts stack' vs) (hts : ∀ t ∈ ts, ∀ v, atomValue? t = some (.ok v) → p v)
    (hstack : ∀ f ∈ stack, f.Sound p) : ∀ v ∈ vs, v.WellFormed p := by
  induction h with
  | nil =>
      intro v hv
      cases hv
  | @cons stack t stack₁ out ts stack₂ vs hstep _ ih =>
      obtain ⟨hstack₁, hout⟩ := step_sound hwrap (hts t (by simp)) hstack hstep
      intro v hv
      rw [List.mem_append, Option.mem_toList] at hv
      rcases hv with hv | hv
      · exact hout v hv
      · exact ih (fun u hu => hts u (by simp [hu])) hstack₁ v hv

private theorem fromLexeme_wrap {kind : TokenKind} {head : String} (h : wraps? kind = some head) :
    (Datum.symbol head).FromLexeme := by
  refine ⟨⟨.atom, head, .start⟩, ?_⟩
  cases kind <;> simp only [wraps?, Option.some.injEq, reduceCtorEq] at h <;> subst h <;>
    exact ⟨⟨_, _, rfl, by decide⟩, rfl⟩

/-- Every value that is read is well formed, and each of its atoms was a lexeme. -/
theorem wellFormed_of_read {text : String} {vs : List Datum} (h : read text = .ok vs) :
    ∀ v ∈ vs, v.WellFormed Datum.FromLexeme := by
  obtain ⟨ts, hlex, hrun⟩ := read_eq_ok_iff.1 h
  have hlexes := Token.lexes_iff.2 ⟨ts, hlex, rfl⟩
  apply hrun.sound (fun _ _ => fromLexeme_wrap)
  · intro t ht v hv
    exact ⟨t, hlexes.isLexeme (lexeme t) (List.mem_map_of_mem ht), hv⟩
  · intro f hf
    cases hf

end Reader

end PageForms
