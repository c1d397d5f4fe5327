import PageForms.Datum.Replace
import PageForms.Proofs.Datum.DecEq
import PageForms.Proofs.Datum.Layout
import PageForms.Proofs.Reader.AtomText

/-!
# Values that their texts restore

A value is restorable if it is made up of atoms that can be read and written, whether or not it was
read as a whole. Every value that was read is restorable when its numbers have texts, replacing
parts of a restorable value by restorable ones keeps it so, and texts of restorable values, laid out
one after the other, are read as those values.
-/

namespace PageForms

namespace Datum

/-- The atoms of the value are read from their texts. -/
def Restorable (v : Datum) : Prop :=
  v.WellFormed fun a => a.FromLexeme ∧ a.isPrintable = true

theorem restorable_atom {v : Datum} (hv : v.isCollection = false) (hlexeme : v.FromLexeme)
    (hprintable : v.isPrintable = true) : v.Restorable :=
  .atom hv ⟨hlexeme, hprintable⟩

theorem Restorable.items {shape : Shape} {xs : List Datum} (h : (seq shape xs).Restorable) :
    shape.isBracketed = true ∧ ∀ x ∈ xs, x.Restorable :=
  wellFormed_seq_iff.1 h

theorem restorable_seq {shape : Shape} {xs : List Datum} (hshape : shape.isBracketed = true)
    (hxs : ∀ x ∈ xs, x.Restorable) : (seq shape xs).Restorable :=
  .seq hshape hxs

/-! ## Atoms -/

theorem restorable_str (s : String) : (str s).Restorable := by
  refine restorable_atom rfl ⟨⟨.string, Text.quote s, .start⟩, Text.isLexeme_quote s, ?_⟩ rfl
  simp only [Reader.atomValue?, Text.unquote_quote]
  rw [Except.map_ok, String.ofList_toList]

def isAtomOf (v : Datum) (text : String) : Bool :=
  match text.toList with
  | [] => false
  | c :: cs =>
    Token.isAtomStart c && cs.all Token.isAtomChar && decide (Reader.readAtom text = .ok v)

theorem restorable_of_isAtomOf {v : Datum} {text : String} (h : isAtomOf v text = true)
    (hprintable : v.isPrintable = true) : v.Restorable := by
  unfold isAtomOf at h
  split at h
  · cases h
  · next c cs htext =>
    simp only [Bool.and_eq_true, List.all_eq_true, decide_eq_true_eq] at h
    obtain ⟨⟨hc, hcs⟩, hread⟩ := h
    refine restorable_atom (Reader.isCollection_of_readAtom hread)
      ⟨⟨.atom, text, .start⟩, Token.isLexeme_atom htext hc hcs, ?_⟩ hprintable
    rw [Reader.atomValue?, hread]

/-! ## Values that were read -/

/-- A value that was read is written as its lexemes. -/
theorem WellFormed.spells {v : Datum} (h : v.WellFormed FromLexeme) :
    Token.Spells v.write v.lexemes :=
  (h.imp fun _ _ ha => ha.isSpelled).spells_write

/-- A value that was read is laid out as its lexemes. -/
theorem WellFormed.spells_layOutAt {v : Datum} (h : v.WellFormed FromLexeme) (width col : Int) :
    Token.Spells (v.layOutAt width col) v.lexemes :=
  (h.imp fun _ _ ha => ha.isSpelled).laysOut width col

theorem restorable_of_wellFormed {v : Datum} (h : v.WellFormed FromLexeme)
    (hfinite : v.isFinite = true) (hwritable : v.writable = true) : v.Restorable := by
  apply h.and_isPrintable
  rw [isPrintable, hwritable, hfinite]
  rfl

theorem restorable_of_read {text : String} {vs : List Datum} (h : Reader.read text = .ok vs)
    (hfinite : ∀ v ∈ vs, v.isFinite = true) (hwritable : ∀ v ∈ vs, v.writable = true) :
    ∀ v ∈ vs, v.Restorable :=
  fun v hv =>
    restorable_of_wellFormed (Reader.wellFormed_of_read h v hv) (hfinite v hv) (hwritable v hv)

theorem Restorable.wellFormed {v : Datum} (h : v.Restorable) : v.WellFormed FromLexeme :=
  h.imp fun _ _ ha => ha.1

theorem Restorable.readsBack {v : Datum} (h : v.Restorable) : v.WellFormed ReadsBack :=
  h.imp fun _ _ ha => ha.1.readsBack ha.2

/-! ## Replacing parts -/

mutual

theorem replaceWhere_restorable {p : Datum → Bool} {f : Datum → Except Fault Datum}
    (hf : ∀ v w, v.Restorable → f v = .ok w → w.Restorable) :
    ∀ v w : Datum, v.Restorable → v.replaceWhere p f = .ok w → w.Restorable
  | .seq shape xs, w, hv, h => by
      rw [replaceWhere] at h
      split at h
      · exact hf _ w hv h
      · obtain ⟨ys, hys, rfl⟩ := map_eq_ok h
        exact restorable_seq hv.items.1 (replaceWhereIn_restorable hf xs ys hv.items.2 hys)
  | .nil, w, hv, h | .bool _, w, hv, h | .int _, w, hv, h | .float _, w, hv, h
  | .str _, w, hv, h | .symbol _, w, hv, h | .keyword _, w, hv, h | .literal _, w, hv, h
  | .map _, w, hv, h => by
      simp only [replaceWhere] at h
      split at h
      · exact hf _ w hv h
      · cases h
        exact hv

private theorem replaceWhereIn_restorable {p : Datum → Bool} {f : Datum → Except Fault Datum}
    (hf : ∀ v w, v.Restorable → f v = .ok w → w.Restorable) :
    ∀ xs ys : List Datum, (∀ x ∈ xs, x.Restorable) → replaceWhereIn p f xs = .ok ys →
      ∀ y ∈ ys, y.Restorable
  | [], ys, _, h => by
      cases h
      simp
  | x :: xs, ys, hxs, h => by
      rw [replaceWhereIn] at h
      obtain ⟨y, hy, h⟩ := bind_eq_ok h
      obtain ⟨zs, hzs, h⟩ := bind_eq_ok h
      cases h
      have hrest := replaceWhereIn_restorable hf xs zs (fun z hz => hxs z (by simp [hz])) hzs
      intro z hz
      rcases List.mem_cons.1 hz with rfl | hz
      · exact replaceWhere_restorable hf x z (hxs x (by simp)) hy
      · exact hrest z hz

end

end Datum

end PageForms
