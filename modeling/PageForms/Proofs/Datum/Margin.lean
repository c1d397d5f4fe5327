import Mathlib.Data.List.DropRight
import PageForms.Proofs.Datum.DecEq
import PageForms.Proofs.Datum.LineParts
import PageForms.Proofs.Datum.Writable
import PageForms.Proofs.Reader.AtomText
import PageForms.Proofs.Reader.Names

/-!
# The right margin

A line of a laid-out text goes beyond the margin only where breaking it would not help: what sticks
out are closing brackets and commas at its end, or there is at most one atom on it, keys apart.

Every layout assumes a column for the text that it lays out. That it is the true one shows in how
texts are put together: behind a front without atoms a text starts where the front ends, a new line
starts with as many blanks as the column says, and behind a text there is nothing but a new line or
ends.
-/

namespace PageForms

open Datum (extent)

@[simp] theorem extent_append (s t : String) : extent (s ++ t) = extent s + extent t := by
  simp [extent]

theorem extent_nonneg (s : String) : 0 ≤ extent s := by
  simp [extent]

private theorem extent_spaces {n : Int} (h : 0 ≤ n) : extent (Text.spaces n) = n := by
  rw [extent, Text.spaces, String.length_ofList, List.length_replicate]
  exact Int.toNat_of_nonneg h

/-! ## Lines -/

/-- The parts, from a column on, keep to the margin, or at most one of them is an atom. -/
def Fits (width col : Int) (ps : List LinePart) : Prop :=
  col + extent (lineText ps) ≤ width ∨ ps.countP LinePart.isAtom ≤ 1

/-- The line fits once some of the ends behind its other parts are taken off. -/
def InMargin (width col : Int) (ps : List LinePart) : Prop :=
  ∃ kept ends, ps = kept ++ ends ∧ (∀ p ∈ ends, p.isEnd = true) ∧ Fits width col kept

variable {width col : Int}

private theorem fits_atom (text : String) : Fits width col [.atom text] :=
  .inr (by simp [LinePart.isAtom])

private theorem Fits.prepend {front ps : List LinePart} (hfront : ∀ p ∈ front, p.isAtom = false)
    (h : Fits width (col + extent (lineText front)) ps) : Fits width col (front ++ ps) := by
  have hnone : front.countP LinePart.isAtom = 0 := by
    rw [List.countP_eq_zero]
    intro p hp
    simp [hfront p hp]
  unfold Fits at h ⊢
  rw [lineText_append, extent_append, List.countP_append, hnone]
  omega

private theorem Fits.of_append {ps qs : List LinePart} (h : Fits width col (ps ++ qs)) :
    Fits width col ps := by
  have hextent := extent_nonneg (lineText qs)
  unfold Fits at h ⊢
  rw [lineText_append, extent_append, List.countP_append] at h
  omega

private theorem Fits.inMargin {ps : List LinePart} (h : Fits width col ps) :
    InMargin width col ps :=
  ⟨ps, [], by simp, by simp, h⟩

namespace InMargin

variable {ps : List LinePart}

private theorem append_end {p : LinePart} (hp : p.isEnd = true) (h : InMargin width col ps) :
    InMargin width col (ps ++ [p]) := by
  obtain ⟨kept, ends, rfl, hends, hkept⟩ := h
  refine ⟨kept, ends ++ [p], by simp, ?_, hkept⟩
  rw [List.forall_mem_append, List.forall_mem_singleton]
  exact ⟨hends, hp⟩

private theorem prepend {front : List LinePart} (hfront : ∀ p ∈ front, p.isAtom = false)
    (h : InMargin width (col + extent (lineText front)) ps) : InMargin width col (front ++ ps) := by
  obtain ⟨kept, ends, rfl, hends, hkept⟩ := h
  exact ⟨front ++ kept, ends, by simp, hends, hkept.prepend hfront⟩

/-- The line fits without all of the ends that it has. -/
theorem fits_rdropWhile (h : InMargin width col ps) :
    Fits width col (ps.rdropWhile LinePart.isEnd) := by
  obtain ⟨kept, ends, rfl, hends, hkept⟩ := h
  have hdrop : (kept ++ ends).rdropWhile LinePart.isEnd = kept.rdropWhile LinePart.isEnd := by
    induction ends using List.reverseRecOn with
    | nil => simp
    | append_singleton ends p ih =>
        rw [← List.append_assoc, List.rdropWhile_concat_pos _ _ _ (hends p (by simp))]
        exact ih fun q hq => hends q (by simp [hq])
  obtain ⟨rest, hrest⟩ := kept.rdropWhile_prefix LinePart.isEnd
  rw [hdrop]
  rw [← hrest] at hkept
  exact hkept.of_append

end InMargin

/-- The text from a column on consists of lines that keep to the margin, and the lines of these
parts. -/
inductive Sits (width : Int) : Int → String → List LinePart → Prop
  | last {col : Int} {ps : List LinePart} (h : InMargin width col ps) :
      Sits width col (lineText ps) (solid ps)
  | next {col : Int} {ps qs : List LinePart} {text : String} (h : InMargin width col ps)
      (hrest : Sits width 0 text qs) : Sits width col (lineText ps ++ "\n" ++ text) (solid ps ++ qs)

/-- A text on one line that fits. -/
theorem OneLine.sits {s : String} {qs : List LinePart} (h : OneLine s qs)
    (hfits : col + extent s ≤ width ∨ qs.countP LinePart.isAtom ≤ 1) : Sits width col s qs := by
  obtain ⟨ps, rfl, rfl⟩ := h
  have hcount : (solid ps).countP LinePart.isAtom = ps.countP LinePart.isAtom := by
    rw [solid, List.countP_filter]
    apply List.countP_congr
    intro p _
    cases p <;> rfl
  rw [hcount] at hfits
  exact .last (Fits.inMargin hfits)

namespace Sits

variable {s t : String} {qs rs : List LinePart}

private theorem append_end {p : LinePart} (hp : p.isEnd = true) (h : Sits width col s qs) :
    Sits width col (s ++ p.text) (qs ++ [p]) := by
  induction h with
  | last h =>
      have hlast := Sits.last (h.append_end hp)
      rwa [lineText_append, lineText_singleton, solid_append, solid_end hp] at hlast
  | next h _ ih =>
      rw [String.append_assoc, List.append_assoc]
      exact .next h ih

private theorem prepend {front : List LinePart} (hfront : ∀ p ∈ front, p.isAtom = false)
    (h : Sits width (col + extent (lineText front)) s qs) :
    Sits width col (lineText front ++ s) (solid front ++ qs) := by
  cases h with
  | last h =>
      rw [← lineText_append, ← solid_append]
      exact .last (h.prepend hfront)
  | next h hrest =>
      rw [← String.append_assoc, ← String.append_assoc, ← lineText_append, ← List.append_assoc,
        ← solid_append]
      exact .next (h.prepend hfront) hrest

private theorem append_line (h : Sits width col s qs) (h' : Sits width 0 t rs) :
    Sits width col (s ++ "\n" ++ t) (qs ++ rs) := by
  induction h with
  | last h => exact .next h h'
  | @next col ps qs text h _ ih =>
      have htext : lineText ps ++ "\n" ++ text ++ "\n" ++ t =
          lineText ps ++ "\n" ++ (text ++ "\n" ++ t) := by
        simp only [String.append_assoc]
      rw [htext, List.append_assoc]
      exact .next h ih

theorem indent {n : Int} (hn : 0 ≤ n) (h : Sits width (col + n) s qs) :
    Sits width col (Text.spaces n ++ s) qs := by
  have htext : lineText [.blanks n.toNat] = Text.spaces n := by
    rw [lineText_singleton, LinePart.text, Int.toNat_of_nonneg hn]
  rw [← extent_spaces hn, ← htext] at h
  have hfront := h.prepend (by simp [LinePart.isAtom])
  rwa [htext] at hfront

/-- A new line starts with blanks up to its column. -/
theorem append_indented {n : Int} (hn : 0 ≤ n) (h : Sits width col s qs)
    (h' : Sits width n t rs) : Sits width col (s ++ "\n" ++ Text.spaces n ++ t) (qs ++ rs) := by
  rw [← Int.zero_add n] at h'
  have hline := h.append_line (h'.indent hn)
  rwa [← String.append_assoc] at hline

/-- What stands between brackets starts where the opening one ends. -/
theorem enclose (opener closer : String) (h : Sits width (col + extent opener) s qs) :
    Sits width col (opener ++ s ++ closer) (.opener opener :: (qs ++ [.closer closer])) := by
  have hopen : lineText [.opener opener] = opener := lineText_singleton _
  have hclose : (LinePart.closer closer).isEnd = true := rfl
  rw [← hopen] at h
  have hclosed := (h.prepend (by simp [LinePart.isAtom])).append_end hclose
  rwa [hopen] at hclosed

end Sits

/-! ## Layouts -/

private theorem lineText_append_blank (ps qs : List LinePart) :
    lineText (ps ++ .blanks 1 :: qs) = lineText ps ++ " " ++ lineText qs := by
  rw [lineText_append, lineText_cons, String.append_assoc]
  rfl

theorem extent_append_blank (s t : String) : extent (s ++ " " ++ t) = extent s + 1 + extent t := by
  rw [extent_append, extent_append]
  rfl

namespace Datum

variable {inner : Int} {s : String} {qs : List LinePart}

/-- The value keeps to the margin wherever it is laid out. -/
def SitsAnywhere (width : Int) (v : Datum) : Prop :=
  ∀ col, 0 ≤ col → Sits width col (layOutAt width col v) v.lineParts

private theorem sits_layOutLines {xs : List Datum} (hxs : ∀ x ∈ xs, SitsAnywhere width x)
    (hinner : 0 ≤ inner) (h : Sits width col s qs) :
    Sits width col (s ++ layOutLines width inner xs) (qs ++ itemParts xs) := by
  induction xs generalizing s qs with
  | nil =>
      rw [layOutLines, itemParts, String.append_empty, List.append_nil]
      exact h
  | cons x xs ih =>
      have hx := h.append_indented hinner (hxs x (by simp) inner hinner)
      have hrest := ih (fun y hy => hxs y (by simp [hy])) hx
      rw [layOutLines, itemParts]
      simpa only [String.append_assoc, List.append_assoc] using hrest

/-- A value sits behind its key. -/
theorem sits_entry (k : Datum) {v : Datum} (hv : SitsAnywhere width v) (hcol : 0 ≤ col) :
    Sits width col (k.write ++ " " ++ layOutAt width (col + extent k.write + 1) v)
      (.key k.write :: v.lineParts) := by
  have htext : lineText [.key k.write, .blanks 1] = k.write ++ " " := rfl
  have hextent : extent " " = 1 := rfl
  have hkey := extent_nonneg k.write
  have hvalue := hv (col + extent k.write + 1) (by omega)
  rw [Int.add_assoc, ← hextent, ← extent_append, ← htext] at hvalue
  have hentry := hvalue.prepend (by simp [LinePart.isAtom])
  rw [htext, extent_append, hextent, ← Int.add_assoc] at hentry
  exact hentry

private theorem sits_layOutEntries {es : Entries} (hes : ∀ e ∈ es, SitsAnywhere width e.2)
    (hinner : 0 ≤ inner) (h : Sits width col s qs) :
    Sits width col (s ++ layOutEntries width inner es) (qs ++ entryParts es) := by
  induction es generalizing s qs with
  | nil =>
      rw [layOutEntries, entryParts, String.append_empty, List.append_nil]
      exact h
  | cons e es ih =>
      have hend : LinePart.comma.isEnd = true := rfl
      have hentry := (h.append_end hend).append_indented hinner
        (sits_entry e.1 (hes e (by simp)) hinner)
      have hrest := ih (fun f hf => hes f (by simp [hf])) hentry
      have hcomma : ",\n" = LinePart.comma.text ++ "\n" := rfl
      rw [layOutEntries, entryParts, hcomma]
      simpa only [String.append_assoc, List.append_assoc, List.cons_append, List.nil_append]
        using hrest

/-- An item stays on the line of the head only while the line keeps to the margin. -/
theorem sits_layOutCall {xs : List Datum} (hwrite : ∀ x ∈ xs, OneLine x.write x.lineParts)
    (hxs : ∀ x ∈ xs, SitsAnywhere width x) (hcol : 0 ≤ col) (ps : List LinePart)
    (hfits : Fits width col ps) :
    Sits width col (layOutCall width col (lineText ps) (col + extent (lineText ps)) xs)
      (solid ps ++ itemParts xs) := by
  induction xs generalizing ps with
  | nil =>
      rw [layOutCall, itemParts, List.append_nil]
      exact .last hfits.inMargin
  | cons x xs ih =>
      have hwrite' : ∀ y ∈ xs, OneLine y.write y.lineParts := fun y hy => hwrite y (by simp [hy])
      have hxs' : ∀ y ∈ xs, SitsAnywhere width y := fun y hy => hxs y (by simp [hy])
      rw [layOutCall, itemParts]
      split
      · next hstays =>
        obtain ⟨parts, hparts, hsolid⟩ := hwrite x (by simp)
        have hreach : col + extent (lineText (ps ++ .blanks 1 :: parts)) =
            col + extent (lineText ps) + 1 + extent x.write := by
          rw [lineText_append_blank, extent_append_blank, hparts]
          omega
        have hroom : col + extent (lineText ps) + 1 + extent x.write ≤ width := by
          simpa using (Bool.and_eq_true_iff.1 hstays).2
        -- the column where the line ends is the one that the layout goes on with
        have hrest := ih hwrite' hxs' (ps ++ .blanks 1 :: parts) (.inl (by omega))
        have hblank : solid (.blanks 1 :: parts) = x.lineParts := hsolid
        rwa [hreach, lineText_append_blank, ← hparts, solid_append, hblank, List.append_assoc]
          at hrest
      · have hline : Sits width col (lineText ps) (solid ps) := .last hfits.inMargin
        have hx := hline.append_indented (by omega) (hxs x (by simp) (col + 2) (by omega))
        have hrest := sits_layOutLines hxs' (by omega : 0 ≤ col + 2) hx
        rwa [List.append_assoc] at hrest

/-- An atom goes on the line being filled only while the line keeps to the margin. The line is never
empty, so it gets a space with every atom. -/
theorem sits_fillFrom {xs : List Datum} (hatoms : ∀ x ∈ xs, x.isCollection = false)
    (hne : ∀ x ∈ xs, x.write ≠ "") (hinner : 0 ≤ inner) {closing : Int} (hclosing : 0 ≤ closing)
    (ps : List LinePart) (hps : lineText ps ≠ "") (hfits : Fits width inner ps) :
    Sits width inner (Text.joinWith ("\n" ++ Text.spaces inner)
      (fillFrom width inner closing (lineText ps) (xs.map write))) (solid ps ++ itemParts xs) := by
  induction xs generalizing ps with
  | nil =>
      rw [itemParts, List.append_nil]
      exact .last hfits.inMargin
  | cons x xs ih =>
      have hatoms' : ∀ y ∈ xs, y.isCollection = false := fun y hy => hatoms y (by simp [hy])
      have hne' : ∀ y ∈ xs, y.write ≠ "" := fun y hy => hne y (by simp [hy])
      have hx : x.lineParts = [.atom x.write] := lineParts_of_atom (hatoms x (by simp))
      have hatom : lineText [.atom x.write] = x.write := lineText_singleton _
      rw [List.map_cons, fillFrom, if_neg (by simpa using hps), itemParts, hx]
      simp only
      split
      · have hline : Sits width inner (lineText ps) (solid ps) := .last hfits.inMargin
        have hrest := ih hatoms' hne' [.atom x.write] (by rw [hatom]; exact hne x (by simp))
          (fits_atom _)
        rw [joinWith_cons _ _ (fillFrom_ne_nil _ _ _ _ _), ← String.append_assoc]
        rw [hatom] at hrest
        exact hline.append_indented hinner hrest
      · next hroom =>
        have htext : lineText (ps ++ [.blanks 1, .atom x.write]) =
            lineText ps ++ " " ++ x.write := by
          rw [lineText_append_blank, hatom]
        have hrest := ih hatoms' hne' (ps ++ [.blanks 1, .atom x.write])
          (by rw [htext]; simp) (.inl (by rw [htext]; omega))
        rw [htext, solid_append, List.append_assoc] at hrest
        exact hrest

private theorem sits_fill {x : Datum} {xs : List Datum}
    (hatoms : ∀ y ∈ x :: xs, y.isCollection = false) (hne : ∀ y ∈ x :: xs, y.write ≠ "")
    (hcol : 0 ≤ col) (shape : Shape) :
    Sits width col (fill width col shape (x :: xs)) (seq shape (x :: xs)).lineParts := by
  have hopener := extent_nonneg shape.opener
  have hatom : lineText [.atom x.write] = x.write := lineText_singleton _
  have hatoms' : ∀ y ∈ xs, y.isCollection = false := fun y hy => hatoms y (by simp [hy])
  have hne' : ∀ y ∈ xs, y.write ≠ "" := fun y hy => hne y (by simp [hy])
  have hinner : 0 ≤ col + extent shape.opener := by omega
  have hfits : Fits width (col + extent shape.opener) [.atom x.write] := fits_atom _
  have hlines := sits_fillFrom hatoms' hne' hinner (extent_nonneg shape.closer) [.atom x.write]
    (by rw [hatom]; exact hne x (by simp)) hfits
  rw [hatom] at hlines
  rw [lineParts, itemParts, lineParts_of_atom (hatoms x (by simp))]
  exact hlines.enclose shape.opener shape.closer

private theorem sits_seq {xs : List Datum} (hwrite : ∀ x ∈ xs, OneLine x.write x.lineParts)
    (hne : ∀ x ∈ xs, x.isCollection = false → x.write ≠ "") (ih : ∀ x ∈ xs, SitsAnywhere width x)
    (shape : Shape) :
    SitsAnywhere width (seq shape xs) := by
  intro col hcol
  cases xs with
  | nil =>
      rw [layOutAt]
      exact (oneLine_seq hwrite shape).sits
        (.inr (by simp [lineParts, itemParts, LinePart.isAtom]))
  | cons x xs =>
      have hwrite' : ∀ y ∈ xs, OneLine y.write y.lineParts := fun y hy => hwrite y (by simp [hy])
      have ih' : ∀ y ∈ xs, SitsAnywhere width y := fun y hy => ih y (by simp [hy])
      have hinner : 0 ≤ col + extent shape.opener := by
        have := extent_nonneg shape.opener
        omega
      rcases layOutAt_seq_cases width col shape x xs with
        ⟨hflat, hlaid⟩ | ⟨hx, hlaid⟩ | ⟨hatoms, hlaid⟩ | hlaid
      · rw [hlaid]
        exact (oneLine_seq hwrite shape).sits (.inl hflat)
      · have hhead : lineText [.opener shape.opener, .atom x.write] = shape.opener ++ x.write := by
          rw [lineText_cons, lineText_singleton]
          rfl
        have hclose : (LinePart.closer shape.closer).isEnd = true := rfl
        have hcall := sits_layOutCall hwrite' ih' hcol [.opener shape.opener, .atom x.write]
          (.inr (by simp [LinePart.isAtom]))
        have hclosed := hcall.append_end hclose
        rw [hhead] at hclosed
        rw [hlaid, lineParts, itemParts, lineParts_of_atom hx]
        exact hclosed
      · rw [hlaid]
        exact sits_fill hatoms (fun y hy => hne y hy (hatoms y hy)) hcol shape
      · have hlines := sits_layOutLines ih' hinner (ih x (by simp) _ hinner)
        have hclosed := hlines.enclose shape.opener shape.closer
        rw [hlaid, lineParts, itemParts]
        rwa [← String.append_assoc] at hclosed

private theorem sits_map {es : Entries} (hwrite : ∀ e ∈ es, OneLine e.2.write e.2.lineParts)
    (ih : ∀ e ∈ es, SitsAnywhere width e.2) : SitsAnywhere width (map es) := by
  intro col hcol
  cases es with
  | nil =>
      rw [layOutAt]
      exact (oneLine_map hwrite).sits (.inr (by simp [lineParts, LinePart.isAtom]))
  | cons e es =>
      have hinner : 0 ≤ col + 1 := by omega
      have ih' : ∀ f ∈ es, SitsAnywhere width f.2 := fun f hf => ih f (by simp [hf])
      rw [layOutAt]
      simp only
      split
      · next hflat => exact (oneLine_map hwrite).sits (.inl hflat)
      · have hentry := sits_entry e.1 (ih e (by simp)) hinner
        have hentries := sits_layOutEntries ih' hinner hentry
        have hclosed := Sits.enclose "\x7b" "\x7d" hentries
        rw [lineParts]
        simpa only [String.append_assoc, List.append_assoc, List.cons_append] using hclosed

/-- A well-formed value keeps to the margin wherever it is laid out. -/
theorem WellFormed.sitsAnywhere {v : Datum} (h : WellFormed (fun a => a.write ≠ "") v)
    (width : Int) : SitsAnywhere width v := by
  induction h with
  | atom hv _ =>
      intro col _
      rw [layOutAt_of_atom hv]
      exact (oneLine_atom hv).sits (.inr (by simp [lineParts_of_atom hv, LinePart.isAtom]))
  | seq _ hxs ih =>
      exact sits_seq (fun x hx => (hxs x hx).oneLine_write)
        (fun x hx hatom => (hxs x hx).of_atom hatom) ih _
  | map _ hvalues _ _ ih => exact sits_map (fun e he => (hvalues e he).oneLine_write) ih

end Datum

/-! ## Lines and line breaks -/

private theorem Sits.exists_lines {text : String} {qs : List LinePart}
    (h : Sits width col text qs) :
    ∃ first rest, text.toList =
        ['\n'].intercalate ((first :: rest).map fun line => (lineText line).toList) ∧
      solid (first :: rest).flatten = qs ∧ InMargin width col first ∧
      ∀ line ∈ rest, InMargin width 0 line := by
  induction h with
  | @last col ps h => exact ⟨ps, [], by simp, by simp, h, by simp⟩
  | @next col ps qs text h _ ih =>
      obtain ⟨first, rest, htext, hsolid, hfirst, hrest⟩ := ih
      refine ⟨ps, first :: rest, ?_, ?_, h, ?_⟩
      · simp only [String.toList_append, htext, List.map_cons, List.intercalate_cons_cons]
        rfl
      · rw [List.flatten_cons, solid_append, hsolid]
      · rw [List.forall_mem_cons]
        exact ⟨hfirst, hrest⟩

/-- A text of parts without line breaks is broken into just its lines. -/
theorem Sits.splitOn {text : String} {qs : List LinePart}
    (h : Sits width 0 text qs) (hqs : ∀ q ∈ qs, q.Unbroken) :
    ∃ lines : List (List LinePart),
      text.toList.splitOn '\n' = lines.map (fun line => (lineText line).toList) ∧
      solid lines.flatten = qs ∧ ∀ line ∈ lines, InMargin width 0 line := by
  obtain ⟨first, rest, htext, rfl, hfirst, hrest⟩ := h.exists_lines
  have hunbroken := unbroken_of_solid hqs
  refine ⟨first :: rest, ?_, rfl, ?_⟩
  · rw [htext]
    apply List.splitOn_intercalate
    · intro chars hchars
      obtain ⟨line, hline, rfl⟩ := List.mem_map.1 hchars
      apply lineText_unbroken
      intro p hp
      exact hunbroken p (List.mem_flatten.2 ⟨line, hline, hp⟩)
    · exact List.cons_ne_nil _ _
  · rw [List.forall_mem_cons]
    exact ⟨hfirst, hrest⟩

/-! ## Values that were read -/

private theorem Text.newline_not_mem_quote (s : String) : '\n' ∉ (quote s).toList := by
  have hchar : ∀ c, '\n' ∉ quoteChar c := by
    intro c
    unfold quoteChar
    split_ifs <;> simp_all [eq_comm]
  rw [toList_quote]
  simp [hchar]

namespace Datum

theorem FromLexeme.unbroken {a : Datum} (h : FromLexeme a) (hliteral : a.literalsUnbroken = true) :
    '\n' ∉ a.write.toList := by
  have hatom : a.atomKind = .atom → '\n' ∉ a.write.toList := by
    intro hkind
    have hspelled : IsSpelled a := h.isSpelled
    rw [IsSpelled, hkind] at hspelled
    obtain ⟨c, cs, htext, hstart, hchars⟩ := Reader.isLexeme_atom_iff.1 hspelled
    rw [htext, List.mem_cons, not_or]
    constructor
    · rintro rfl
      exact absurd hstart (by decide)
    · intro hmem
      exact absurd (List.all_eq_true.1 hchars _ hmem) (by decide)
  cases a with
  | literal text => simpa [literalsUnbroken, write] using hliteral
  | str s => exact Text.newline_not_mem_quote s
  | _ => exact hatom rfl

private theorem WellFormed.keeps_margin {v : Datum} (h : WellFormed FromLexeme v)
    (hliterals : v.literalsUnbroken = true) (width : Int) :
    SitsAnywhere width v ∧ ∀ p ∈ v.lineParts, p.Unbroken := by
  have hatoms := h.and_literalsUnbroken hliterals
  constructor
  · apply (hatoms.imp _).sitsAnywhere
    intro a _ ha
    exact ha.1.isSpelled.write_ne_empty
  · apply (hatoms.imp _).unbroken
    intro a _ ha
    exact ha.1.unbroken ha.2

end Datum

namespace Reader

variable {source : String} {vs : List Datum} {v : Datum}

private theorem keeps_margin_of_read (h : read source = .ok vs) (hv : v = .list vs ∨ v ∈ vs)
    (hliterals : v.literalsUnbroken = true) (width : Int) :
    v.SitsAnywhere width ∧ ∀ p ∈ v.lineParts, p.Unbroken := by
  have hvs := wellFormed_of_read h
  rcases hv with rfl | hv
  · rw [Datum.literalsUnbroken, Datum.allLiteralsUnbroken_eq_all, List.all_eq_true] at hliterals
    have hitems := fun x hx => (hvs x hx).keeps_margin (hliterals x hx) width
    constructor
    · apply Datum.sits_seq (fun x hx => (hvs x hx).oneLine_write) _ (fun x hx => (hitems x hx).1)
      intro x hx hatom
      exact ((hvs x hx).of_atom hatom).isSpelled.write_ne_empty
    · exact Datum.unbroken_seq (fun x hx => (hitems x hx).2) .list
  · exact (hvs v hv).keeps_margin hliterals width

/-- The lines of a value that was read, laid out from any column, keep to the margin but for
closing brackets and commas at their ends and for lines with at most one atom besides keys. -/
theorem layOut_keeps_margin {indent : Int} (h : read source = .ok vs) (hv : v = .list vs ∨ v ∈ vs)
    (hliterals : v.literalsUnbroken = true) (hindent : 0 ≤ indent) (width : Int) :
    (v.writable = false ∧ v.layOut? width indent = .error .unwritableInteger) ∨
    ∃ (text : String) (lines : List (List LinePart)), v.layOut? width indent = .ok text ∧
      (Text.spaces indent ++ text).toList.splitOn '\n' =
        lines.map (fun line => (lineText line).toList) ∧
      solid lines.flatten = v.lineParts ∧
      ∀ line ∈ lines, extent (lineText (line.rdropWhile LinePart.isEnd)) ≤ width ∨
        (line.rdropWhile LinePart.isEnd).countP LinePart.isAtom ≤ 1 := by
  obtain ⟨hsits, hunbroken⟩ := keeps_margin_of_read h hv hliterals width
  cases hwritable : v.writable with
  | false => exact .inl ⟨rfl, by rw [Datum.layOut?, Datum.ifWritable, if_neg (by simp [hwritable])]⟩
  | true =>
      have htext := hsits indent hindent
      rw [← Int.zero_add indent] at htext
      obtain ⟨lines, hlines, hparts, hmargin⟩ := (htext.indent hindent).splitOn hunbroken
      rw [Int.zero_add] at hlines
      refine .inr ⟨_, lines, Datum.layOut?_of_writable hwritable width indent, hlines, hparts, ?_⟩
      intro line hline
      simpa [Fits] using (hmargin line hline).fits_rdropWhile

/-- A map with a vector as a key, in a form whose head line is full. -/
theorem layOut_keeps_margin_narrow :
    ∃ (source text : String) (v : Datum) (lines : List (List LinePart)),
      source = "(div :a [] \x7b[a b] (p c d), \"k\" [x y]\x7d #(f z))" ∧
      read source = .ok [v] ∧ v.layOut? 12 1 = .ok text ∧
      text = Text.joinWith "\n" ["(div :a []", "   \x7b[a b] (p", "            c",
        "            d),", "    \"k\" [x", "         y]\x7d", "   #(f z))"] ∧
      (Text.spaces 1 ++ text).toList.splitOn '\n' =
        lines.map (fun line => (lineText line).toList) ∧
      solid lines.flatten = v.lineParts ∧
      ∀ line ∈ lines, extent (lineText (line.rdropWhile LinePart.isEnd)) ≤ 12 ∨
        (line.rdropWhile LinePart.isEnd).countP LinePart.isAtom ≤ 1 := by
  obtain ⟨v, hv⟩ : ∃ v, v = Datum.call "div" [.keyword "a", .vector [], .map [
    (.vector [.symbol "a", .symbol "b"], .call "p" [.symbol "c", .symbol "d"]),
    (.str "k", .vector [.symbol "x", .symbol "y"])], .seq .fn [.symbol "f", .symbol "z"]] :=
      ⟨_, rfl⟩
  have hread : read "(div :a [] \x7b[a b] (p c d), \"k\" [x y]\x7d #(f z))" = .ok [v] := by
    rw [hv]
    decide +kernel
  have htext : v.layOut? 12 1 = .ok (Text.joinWith "\n" ["(div :a []", "   \x7b[a b] (p",
      "            c", "            d),", "    \"k\" [x", "         y]\x7d", "   #(f z))"]) := by
    rw [hv]
    decide +kernel
  have hliterals : v.literalsUnbroken = true := by
    rw [hv]
    rfl
  have hmem : v = .list [v] ∨ v ∈ [v] := .inr (by simp)
  rcases layOut_keeps_margin hread hmem hliterals (by decide : (0 : Int) ≤ 1) 12 with
    ⟨-, hfault⟩ | ⟨text, lines, hlaid, hlines, hparts, hmargin⟩
  · rw [htext] at hfault
    cases hfault
  · rw [htext] at hlaid
    cases hlaid
    exact ⟨_, _, v, lines, rfl, hread, htext, rfl, hlines, hparts, hmargin⟩

end Reader

end PageForms
