import PageForms.Proofs.Reader.MapItems
import PageForms.Proofs.Reader.Run

/-!
# Reading the lexemes of a value

If every atom of a well-formed value is what its own lexeme is read as, then the lexemes of the
value are read as the value: whatever is unfinished when they start receives it complete.
-/

namespace PageForms

open Token (lexeme Spells)

def Datum.ReadsBack (v : Datum) : Prop :=
  ∀ place, Reader.atomValue? ⟨v.atomKind, v.write, place⟩ = some (.ok v)

namespace Reader

theorem opens?_openKind {shape : Shape} (h : shape.isBracketed = true) :
    opens? shape.openKind = some (.seq shape) := by
  cases shape with
  | list | tuple => cases h
  | _ => rfl

theorem closer_seq {shape : Shape} (h : shape.isBracketed = true) :
    (Bracket.seq shape).closer = shape.closeKind := by
  cases shape with
  | list | tuple => cases h
  | _ => rfl

/-- The tokens of a complete datum hand it to whatever is unfinished. -/
def Completes (ts : List Token) (v : Datum) : Prop :=
  ∀ stack, Runs stack ts (supply stack v).1 (supply stack v).2.toList

private theorem flatMap_lexemes_items (es : Entries) :
    (Entries.items es).flatMap Datum.lexemes =
      es.flatMap fun e => e.1.lexemes ++ e.2.lexemes := by
  induction es with
  | nil => rfl
  | cons e es ih =>
      rw [Entries.items_cons, List.flatMap_cons, List.flatMap_cons, List.flatMap_cons, ih,
        List.append_assoc]

/-- Inside a group, the tokens of complete data add the data to its items. -/
theorem runs_items (opener : Token) (bracket : Bracket) (stack : List Frame) {xs : List Datum}
    (h : ∀ x ∈ xs, ∀ ts : List Token, ts.map lexeme = x.lexemes → Completes ts x)
    {ts : List Token} (hts : ts.map lexeme = xs.flatMap Datum.lexemes) (acc : List Datum) :
    Runs (.group opener bracket acc :: stack) ts
      (.group opener bracket (xs.reverse ++ acc) :: stack) [] := by
  induction xs generalizing ts acc with
  | nil =>
      rw [List.flatMap_nil, List.map_eq_nil_iff] at hts
      subst hts
      exact .nil
  | cons x xs ih =>
      rw [List.flatMap_cons, List.map_eq_append_iff] at hts
      obtain ⟨front, rest, rfl, hfront, hrest⟩ := hts
      have hx := h x (by simp) front hfront (.group opener bracket acc :: stack)
      have hxs := ih (fun y hy => h y (by simp [hy])) hrest (x :: acc)
      have hrun := hx.append hxs
      rw [List.reverse_cons, List.append_assoc]
      exact hrun

/-- A group of complete data between its brackets. -/
theorem completes_group {bracket : Bracket} {xs : List Datum} {v : Datum}
    {first last : Token.Lexeme} {ts : List Token}
    (hts : ts.map lexeme = first :: (xs.flatMap Datum.lexemes ++ [last]))
    (hopens : opens? first.1 = some bracket) (hcloser : last.1 = bracket.closer)
    (hitems : ∀ x ∈ xs, ∀ ts : List Token, ts.map lexeme = x.lexemes → Completes ts x)
    (hclose : ∀ place, closeGroup place bracket xs = .ok v) : Completes ts v := by
  rw [List.map_eq_cons_iff] at hts
  obtain ⟨opener, rest, rfl, rfl, hrest⟩ := hts
  rw [List.map_eq_append_iff] at hrest
  obtain ⟨mid, ending, rfl, hmid, hending⟩ := hrest
  rw [List.map_eq_singleton_iff] at hending
  obtain ⟨closer, rfl, rfl⟩ := hending
  intro stack
  have hrun : Runs (.group opener bracket [] :: stack) mid
      (.group opener bracket xs.reverse :: stack) [] := by
    have hadd := runs_items opener bracket stack hitems hmid []
    rwa [List.append_nil] at hadd
  have hend : step (.group opener bracket xs.reverse :: stack) closer =
      .ok (supply stack v) := by
    rw [step_of_closer hcloser, List.reverse_reverse, hclose]
    rfl
  exact .cons (step_of_opens? hopens stack) (hrun.append (.single hend))

/-- The tokens of a well-formed value are read as the value. -/
theorem completes_of_lexemes {v : Datum} (h : v.WellFormed Datum.ReadsBack) :
    ∀ ts : List Token, ts.map lexeme = v.lexemes → Completes ts v := by
  induction h with
  | @atom v hv hp =>
      intro ts hts stack
      rw [Datum.lexemes_of_atom hv, List.map_eq_singleton_iff] at hts
      obtain ⟨⟨kind, text, place⟩, rfl, ht⟩ := hts
      cases ht
      exact .single (step_of_atomValue? (hp place) stack)
  | @seq shape xs hshape _ ih =>
      intro ts hts
      rw [Datum.lexemes, Datum.itemLexemes_eq_flatMap] at hts
      exact completes_group hts (opens?_openKind hshape) (closer_seq hshape).symm ih fun _ => rfl
  | @map es _ _ hes ihkeys ihvalues =>
      intro ts hts
      rw [Datum.lexemes, Datum.entryLexemes_eq_flatMap, ← flatMap_lexemes_items] at hts
      refine completes_group hts rfl rfl ?_ (buildMap_items hes)
      intro x hx
      obtain ⟨e, he, hxe⟩ := List.mem_flatMap.1 hx
      simp only [List.mem_cons, List.not_mem_nil, or_false] at hxe
      rcases hxe with rfl | rfl
      · exact ihkeys e he
      · exact ihvalues e he

/-- A text that spells the lexemes of well-formed values is read as these values. -/
theorem read_of_spells {text : String} {vs : List Datum}
    (hvs : ∀ v ∈ vs, v.WellFormed Datum.ReadsBack)
    (htext : Spells text (vs.flatMap Datum.lexemes)) : read text = .ok vs := by
  obtain ⟨ts, hlex, hts⟩ := Token.lexes_iff.1 htext.lexes
  rw [read_eq_ok_iff]
  refine ⟨ts, hlex, ?_⟩
  clear htext hlex
  induction vs generalizing ts with
  | nil =>
      rw [List.flatMap_nil, List.map_eq_nil_iff] at hts
      subst hts
      exact .nil
  | cons v vs ih =>
      rw [List.flatMap_cons, List.map_eq_append_iff] at hts
      obtain ⟨front, rest, rfl, hfront, hrest⟩ := hts
      have hv := completes_of_lexemes (hvs v (by simp)) front hfront []
      have hvs' := ih (fun w hw => hvs w (by simp [hw])) rest hrest
      exact hv.append hvs'

end Reader

end PageForms
