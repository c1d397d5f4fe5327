import Mathlib.Tactic.SplitIfs
import PageForms.Datum.Layout
import PageForms.Proofs.Datum.Lexemes

/-!
# Layout keeps the lexemes

Laying a well-formed value out to any margin, from any column, spells the same lexemes as writing it
on one line: a line is broken only between two items, where a separator stands anyway.

Each of the four layouts has its own lemma, which takes what it needs about the items as a
hypothesis; the last theorem puts them together by induction on the value.
-/

namespace PageForms.Datum

open Token (Lexeme Spells Ended IsGap isGap_space isGap_newline_spaces isGap_comma_newline_spaces)

/-- The value spells its lexemes wherever it is laid out. -/
def LaysOut (width : Int) (v : Datum) : Prop :=
  ∀ col, Spells (layOutAt width col v) v.lexemes

/-! ## Items on lines of their own -/

private theorem ended_layOutLines (width col : Int) (xs : List Datum) :
    Ended (layOutLines width col xs).toList := by
  cases xs with
  | nil => exact Token.ended_nil
  | cons x xs =>
      rw [layOutLines, String.append_assoc]
      exact (isGap_newline_spaces col).ended _

private theorem spells_layOutLines {width : Int} {xs : List Datum} (h : ∀ x ∈ xs, LaysOut width x)
    (col : Int) : Spells (layOutLines width col xs) (xs.flatMap lexemes) := by
  induction xs with
  | nil => exact Token.spells_empty
  | cons x xs ih =>
      have hx := (isGap_newline_spaces col).spells_append (h x (by simp) col)
      have hxs := ih fun y hy => h y (by simp [hy])
      rw [layOutLines, List.flatMap_cons]
      exact hx.append hxs (ended_layOutLines width col xs)

private theorem ended_layOutEntries (width col : Int) (es : Entries) :
    Ended (layOutEntries width col es).toList := by
  cases es with
  | nil => exact Token.ended_nil
  | cons e es =>
      rw [layOutEntries, String.append_assoc, String.append_assoc, String.append_assoc]
      exact (isGap_comma_newline_spaces col).ended _

private theorem spells_layOutEntries {width : Int} {es : Entries}
    (hkeys : ∀ e ∈ es, Spells e.1.write e.1.lexemes) (hvalues : ∀ e ∈ es, LaysOut width e.2)
    (col : Int) :
    Spells (layOutEntries width col es) (es.flatMap fun e => e.1.lexemes ++ e.2.lexemes) := by
  induction es with
  | nil => exact Token.spells_empty
  | cons e es ih =>
      have hkey := (isGap_comma_newline_spaces col).spells_append (hkeys e (by simp))
      have hentry := hkey.append_gap isGap_space
        (hvalues e (by simp) (col + extent e.1.write + 1))
      have hrest := ih (fun f hf => hkeys f (by simp [hf])) (fun f hf => hvalues f (by simp [hf]))
      rw [layOutEntries, List.flatMap_cons]
      exact hentry.append hrest (ended_layOutEntries width col es)

/-! ## Items behind the head of a form -/

private theorem spells_layOutCall {width : Int} {xs : List Datum}
    (hwrite : ∀ x ∈ xs, Spells x.write x.lexemes) (hlayout : ∀ x ∈ xs, LaysOut width x)
    (col reach : Int) {line : String} {ls : List Lexeme} (hline : Spells line ls) :
    Spells (layOutCall width col line reach xs) (ls ++ xs.flatMap lexemes) := by
  induction xs generalizing line ls reach with
  | nil =>
      rw [layOutCall, List.flatMap_nil, List.append_nil]
      exact hline
  | cons x xs ih =>
      have hwrite' : ∀ y ∈ xs, Spells y.write y.lexemes := fun y hy => hwrite y (by simp [hy])
      have hlayout' : ∀ y ∈ xs, LaysOut width y := fun y hy => hlayout y (by simp [hy])
      rw [layOutCall, List.flatMap_cons, ← List.append_assoc]
      split
      · exact ih hwrite' hlayout' _ (hline.append_gap isGap_space (hwrite x (by simp)))
      · have hx := hline.append_gap (isGap_newline_spaces (col + 2)) (hlayout x (by simp) (col + 2))
        have hxs := (hx.append (spells_layOutLines hlayout' (col + 2))
          (ended_layOutLines width (col + 2) xs))
        rwa [← String.append_assoc] at hxs

/-! ## Filled lines -/

theorem fillFrom_ne_nil (width inner closing : Int) (current : String) (texts : List String) :
    fillFrom width inner closing current texts ≠ [] := by
  induction texts generalizing current with
  | nil => exact List.cons_ne_nil _ _
  | cons t texts ih =>
      rw [fillFrom]
      split
      · exact ih t
      · simp only
        split
        · exact List.cons_ne_nil _ _
        · exact ih _

theorem joinWith_cons (sep s : String) {texts : List String} (h : texts ≠ []) :
    Text.joinWith sep (s :: texts) = s ++ sep ++ Text.joinWith sep texts := by
  cases texts with
  | nil => exact absurd rfl h
  | cons t texts => rfl

/-- The line being filled is not empty, so every text that goes on it has a space before it. -/
theorem spells_fillFrom {gap : String} (hgap : IsGap gap) {xs : List Datum}
    (hxs : ∀ x ∈ xs, Spells x.write x.lexemes) (hne : ∀ x ∈ xs, x.write ≠ "")
    (width inner closing : Int) {current : String} {ls : List Lexeme} (hcurrent : Spells current ls)
    (hcurrent' : current ≠ "") :
    Spells (Text.joinWith gap (fillFrom width inner closing current (xs.map write)))
      (ls ++ xs.flatMap lexemes) := by
  induction xs generalizing current ls with
  | nil =>
      rw [List.flatMap_nil, List.append_nil]
      exact hcurrent
  | cons x xs ih =>
      have hx := hxs x (by simp)
      have hxs' : ∀ y ∈ xs, Spells y.write y.lexemes := fun y hy => hxs y (by simp [hy])
      have hne' : ∀ y ∈ xs, y.write ≠ "" := fun y hy => hne y (by simp [hy])
      rw [List.map_cons, fillFrom, if_neg (by simpa using hcurrent'), List.flatMap_cons]
      simp only
      split
      · rw [joinWith_cons _ _ (fillFrom_ne_nil _ _ _ _ _)]
        exact hcurrent.append_gap hgap (ih hxs' hne' hx (hne x (by simp)))
      · rw [← List.append_assoc]
        apply ih hxs' hne' (hcurrent.append_gap isGap_space hx)
        simp

private theorem spells_fill {x : Datum} {xs : List Datum}
    (hxs : ∀ y ∈ x :: xs, Spells y.write y.lexemes) (hne : ∀ y ∈ x :: xs, y.write ≠ "")
    (width col : Int) (shape : Shape) :
    Spells (fill width col shape (x :: xs)) (seq shape (x :: xs)).lexemes := by
  unfold fill
  rw [lexemes, itemLexemes_eq_flatMap]
  apply Spells.enclose shape.isBracket_opener _ shape.isBracket_closer shape.ended_closer
  rw [List.map_cons, fillFrom, if_pos (by rfl)]
  exact spells_fillFrom (isGap_newline_spaces _) (fun y hy => hxs y (by simp [hy]))
    (fun y hy => hne y (by simp [hy])) _ _ _ (hxs x (by simp)) (hne x (by simp))

/-! ## Every value -/

theorem IsSpelled.write_ne_empty {v : Datum} (h : IsSpelled v) : v.write ≠ "" := by
  obtain ⟨c, cs, htext, -⟩ := h
  intro hempty
  rw [hempty] at htext
  cases htext

theorem WellFormed.of_atom {p : Datum → Prop} {v : Datum} (h : WellFormed p v)
    (hv : v.isCollection = false) : p v :=
  (wellFormed_atom_iff hv).1 h

/-- The four ways to lay out a sequence that has items. -/
theorem layOutAt_seq_cases (width col : Int) (shape : Shape) (x : Datum) (xs : List Datum) :
    (col + extent (seq shape (x :: xs)).write ≤ width ∧
      layOutAt width col (seq shape (x :: xs)) = (seq shape (x :: xs)).write) ∨
    (x.isCollection = false ∧ layOutAt width col (seq shape (x :: xs)) =
      layOutCall width col (shape.opener ++ x.write) (col + extent (shape.opener ++ x.write)) xs ++
        shape.closer) ∨
    ((∀ y ∈ x :: xs, y.isCollection = false) ∧
      layOutAt width col (seq shape (x :: xs)) = fill width col shape (x :: xs)) ∨
    layOutAt width col (seq shape (x :: xs)) =
      shape.opener ++ layOutAt width (col + extent shape.opener) x ++
        layOutLines width (col + extent shape.opener) xs ++ shape.closer := by
  generalize hlaid : layOutAt width col (seq shape (x :: xs)) = laid
  unfold layOutAt at hlaid
  simp only at hlaid
  split_ifs at hlaid with hflat hcall hatoms
  · exact .inl ⟨hflat, hlaid.symm⟩
  · refine .inr (.inl ⟨?_, hlaid.symm⟩)
    cases x with
    | symbol => rfl
    | _ => simp at hcall
  · refine .inr (.inr (.inl ⟨?_, hlaid.symm⟩))
    simp only [Bool.and_eq_true, Bool.not_eq_true', List.any_eq_false] at hatoms
    intro y hy
    exact Bool.eq_false_iff.2 (hatoms.2 y hy)
  · exact .inr (.inr (.inr hlaid.symm))

private theorem laysOut_seq {width : Int} {shape : Shape} {xs : List Datum}
    (hseq : WellFormed IsSpelled (seq shape xs)) (hxs : ∀ x ∈ xs, WellFormed IsSpelled x)
    (ih : ∀ x ∈ xs, LaysOut width x) : LaysOut width (seq shape xs) := by
  intro col
  have hwrite : ∀ x ∈ xs, Spells x.write x.lexemes := fun x hx => (hxs x hx).spells_write
  cases xs with
  | nil =>
      rw [layOutAt]
      exact hseq.spells_write
  | cons x xs =>
      have hwrite' : ∀ y ∈ xs, Spells y.write y.lexemes := fun y hy => hwrite y (by simp [hy])
      have ih' : ∀ y ∈ xs, LaysOut width y := fun y hy => ih y (by simp [hy])
      have hitems : (seq shape (x :: xs)).lexemes = (shape.openKind, shape.opener) ::
          (x.lexemes ++ xs.flatMap lexemes ++ [(shape.closeKind, shape.closer)]) := by
        rw [lexemes, itemLexemes_eq_flatMap, List.flatMap_cons]
      rcases layOutAt_seq_cases width col shape x xs with
        ⟨-, hlaid⟩ | ⟨-, hlaid⟩ | ⟨hatoms, hlaid⟩ | hlaid
      · rw [hlaid]
        exact hseq.spells_write
      · have hhead := shape.isBracket_opener.spells_append (hwrite x (by simp))
        have hcall := spells_layOutCall hwrite' ih' col (col + extent (shape.opener ++ x.write))
          hhead
        rw [hlaid, hitems]
        exact hcall.append_bracket shape.isBracket_closer shape.ended_closer
      · rw [hlaid]
        apply spells_fill hwrite
        intro y hy
        exact ((hxs y hy).of_atom (hatoms y hy)).write_ne_empty
      · have hx := shape.isBracket_opener.spells_append
          (ih x (by simp) (col + extent shape.opener))
        have hlines := hx.append (spells_layOutLines ih' (col + extent shape.opener))
          (ended_layOutLines width _ xs)
        rw [hlaid, hitems]
        exact hlines.append_bracket shape.isBracket_closer shape.ended_closer

private theorem laysOut_map {width : Int} {es : Entries} (hmap : WellFormed IsSpelled (map es))
    (hkeys : ∀ e ∈ es, WellFormed IsSpelled e.1) (ih : ∀ e ∈ es, LaysOut width e.2) :
    LaysOut width (map es) := by
  intro col
  have hwrite : ∀ e ∈ es, Spells e.1.write e.1.lexemes := fun e he => (hkeys e he).spells_write
  cases es with
  | nil =>
      rw [layOutAt]
      exact hmap.spells_write
  | cons e es =>
      have hwrite' : ∀ f ∈ es, Spells f.1.write f.1.lexemes := fun f hf => hwrite f (by simp [hf])
      have ih' : ∀ f ∈ es, LaysOut width f.2 := fun f hf => ih f (by simp [hf])
      rw [layOutAt]
      simp only
      split
      · exact hmap.spells_write
      · have hkey := isBracket_openBrace.spells_append (hwrite e (by simp))
        have hentry := hkey.append_gap isGap_space
          (ih e (by simp) (col + 1 + extent e.1.write + 1))
        have hentries := hentry.append (spells_layOutEntries hwrite' ih' (col + 1))
          (ended_layOutEntries width (col + 1) es)
        have hclosed := hentries.append_bracket isBracket_closeBrace ended_closeBrace
        rw [lexemes, entryLexemes_eq_flatMap, List.flatMap_cons]
        exact hclosed

theorem layOutAt_of_atom {v : Datum} (h : v.isCollection = false) (width col : Int) :
    layOutAt width col v = v.write := by
  cases v with
  | seq => cases h
  | map => cases h
  | _ => simp [layOutAt]

/-- A well-formed value spells its lexemes wherever it is laid out. -/
theorem WellFormed.laysOut {v : Datum} (h : WellFormed IsSpelled v) (width : Int) :
    LaysOut width v := by
  induction h with
  | atom hv hp =>
      intro col
      rw [layOutAt_of_atom hv]
      exact (WellFormed.atom hv hp).spells_write
  | seq hshape hxs ih => exact laysOut_seq (.seq hshape hxs) hxs ih
  | map hkeys hvalues hes _ ih => exact laysOut_map (.map hkeys hvalues hes) hkeys ih

end PageForms.Datum
