import PageForms.Proofs.Markup.RoundTrip

/-!
# White space inside `pre` and `textarea`

`Node.compact` is the HTML of a node with nothing added between its parts. `Node.stretches` cuts the
HTML of a node into stretches of that and line breaks. An element that is laid out on lines has a
break before every child and one before its closing tag; the line that a break starts is indented by
one level for each such element around it, counted from the next element outside in which white
space matters.

An element in which white space matters is not laid out on lines itself, but the elements inside it
are laid out as anywhere else: its HTML is compact exactly if nothing inside it is on lines.
-/

namespace PageForms

/-- A stretch of HTML: markup that belongs to the node, or a break before a line of this depth. -/
inductive Stretch where
  | markup (text : String)
  | lineBreak (depth : Int)

namespace Stretch

def isMarkup : Stretch → Bool
  | .markup _ => true
  | .lineBreak _ => false

def text : Stretch → String
  | .markup s => s
  | .lineBreak depth => "\n" ++ Node.indentation depth

def written : List Stretch → String
  | [] => ""
  | p :: ps => p.text ++ written ps

private theorem written_append (ps qs : List Stretch) :
    written (ps ++ qs) = written ps ++ written qs := by
  induction ps with
  | nil => rw [List.nil_append, written, String.empty_append]
  | cons p ps ih => rw [List.cons_append, written, written, ih, String.append_assoc]

@[simp]
theorem filter_cons_markup (s : String) (ps : List Stretch) :
    (markup s :: ps).filter isMarkup = markup s :: ps.filter isMarkup := rfl

@[simp]
theorem filter_cons_lineBreak (depth : Int) (ps : List Stretch) :
    (lineBreak depth :: ps).filter isMarkup = ps.filter isMarkup := rfl

private theorem length_written_filter_le (ps : List Stretch) :
    (written (ps.filter isMarkup)).length ≤ (written ps).length := by
  induction ps with
  | nil => exact Nat.le_refl _
  | cons p ps ih =>
      cases p with
      | markup s =>
          rw [filter_cons_markup, written, written, String.length_append, String.length_append]
          omega
      | lineBreak depth =>
          rw [filter_cons_lineBreak, written, String.length_append]
          omega

private theorem length_written_filter_lt {ps : List Stretch} (h : ps.all isMarkup = false) :
    (written (ps.filter isMarkup)).length < (written ps).length := by
  induction ps with
  | nil => cases h
  | cons p ps ih =>
      cases p with
      | markup s =>
          have hrest := ih h
          rw [filter_cons_markup, written, written, String.length_append, String.length_append]
          omega
      | lineBreak depth =>
          have hbreak : 1 ≤ (lineBreak depth).text.length := by
            rw [text, String.length_append]
            exact Nat.le_add_right 1 _
          have hrest := length_written_filter_le ps
          rw [filter_cons_lineBreak, written, String.length_append]
          omega

/-- Line breaks show. -/
theorem written_filter_eq_iff (ps : List Stretch) :
    written ps = written (ps.filter isMarkup) ↔ ps.all isMarkup = true := by
  constructor
  · intro h
    rw [← Bool.not_eq_false]
    intro hbreak
    have hlength := length_written_filter_lt hbreak
    rw [← h] at hlength
    exact Nat.lt_irrefl _ hlength
  · intro h
    rw [List.filter_eq_self.2 (List.all_eq_true.1 h)]

end Stretch

namespace Node

open Stretch (written)

mutual

/-- The HTML of a node with nothing added between its parts. -/
def compact : Node → String
  | .text s => escapeText s
  | .comment s => "<!--" ++ s ++ "-->"
  | .bare => ""
  | .element tag attrs content =>
    if isVoid tag then openTag tag attrs
    else if isRaw tag then openTag tag attrs ++ rawTexts content ++ closeTag tag
    else openTag tag attrs ++ compactAll content ++ closeTag tag

def compactAll : List Node → String
  | [] => ""
  | n :: ns => compact n ++ compactAll ns

end

mutual

/-- The stretches of a node that stands on a line of this depth. -/
def stretches (depth : Int) : Node → List Stretch
  | .text s => [.markup (escapeText s)]
  | .comment s => [.markup ("<!--" ++ s ++ "-->")]
  | .bare => []
  | .element tag attrs content =>
    if isVoid tag then [.markup (openTag tag attrs)]
    else if isRaw tag then
      [.markup (openTag tag attrs), .markup (rawTexts content), .markup (closeTag tag)]
    else if isPreserve tag || content.all isText then
      .markup (openTag tag attrs) :: (stretchesInline content ++ [.markup (closeTag tag)])
    else
      .markup (openTag tag attrs) ::
        (stretchesOnLines (depth + 1) content ++ [.lineBreak depth, .markup (closeTag tag)])

def stretchesInline : List Node → List Stretch
  | [] => []
  | n :: ns => stretches 0 n ++ stretchesInline ns

/-- The stretches of children that each start a line of this depth. -/
def stretchesOnLines (depth : Int) : List Node → List Stretch
  | [] => []
  | n :: ns => .lineBreak depth :: (stretches depth n ++ stretchesOnLines depth ns)

end

mutual

/-- No element in the node is laid out on lines. -/
def onOneLine : Node → Bool
  | .element tag _ content =>
    isVoid tag || isRaw tag || ((isPreserve tag || content.all isText) && allOnOneLine content)
  | _ => true

def allOnOneLine : List Node → Bool
  | [] => true
  | n :: ns => onOneLine n && allOnOneLine ns

end

/-! ## The three readings of the stretches -/

private theorem indentation_zero : indentation 0 = "" := rfl

section Content

variable {ns : List Node}

private theorem renderInline_eq_written
    (h : ∀ n ∈ ns, ∀ depth, render depth n = indentation depth ++ written (stretches depth n)) :
    renderInline ns = written (stretchesInline ns) := by
  induction ns with
  | nil => rfl
  | cons n ns ih =>
      rw [renderInline, stretchesInline, Stretch.written_append, h n (by simp), indentation_zero,
        String.empty_append, ih fun m hm => h m (by simp [hm])]

private theorem renderLines_eq_written
    (h : ∀ n ∈ ns, ∀ depth, render depth n = indentation depth ++ written (stretches depth n))
    (depth : Int) : renderLines depth ns = written (stretchesOnLines depth ns) := by
  induction ns with
  | nil => rfl
  | cons n ns ih =>
      rw [renderLines, stretchesOnLines, written, Stretch.written_append, h n (by simp),
        ih fun m hm => h m (by simp [hm]), Stretch.text, String.append_assoc, String.append_assoc,
        String.append_assoc]

private theorem filter_stretchesInline (h : ∀ n ∈ ns, ∀ depth,
      written ((stretches depth n).filter Stretch.isMarkup) = compact n) :
    written ((stretchesInline ns).filter Stretch.isMarkup) = compactAll ns := by
  induction ns with
  | nil => rfl
  | cons n ns ih =>
      rw [stretchesInline, List.filter_append, Stretch.written_append, h n (by simp),
        ih fun m hm => h m (by simp [hm]), compactAll]

private theorem filter_stretchesOnLines (h : ∀ n ∈ ns, ∀ depth,
      written ((stretches depth n).filter Stretch.isMarkup) = compact n) (depth : Int) :
    written ((stretchesOnLines depth ns).filter Stretch.isMarkup) = compactAll ns := by
  induction ns with
  | nil => rfl
  | cons n ns ih =>
      rw [stretchesOnLines, Stretch.filter_cons_lineBreak, List.filter_append,
        Stretch.written_append, h n (by simp), ih fun m hm => h m (by simp [hm]), compactAll]

private theorem all_stretchesInline
    (h : ∀ n ∈ ns, ∀ depth, (stretches depth n).all Stretch.isMarkup = onOneLine n) :
    (stretchesInline ns).all Stretch.isMarkup = allOnOneLine ns := by
  induction ns with
  | nil => rfl
  | cons n ns ih =>
      rw [stretchesInline, List.all_append, h n (by simp), ih fun m hm => h m (by simp [hm]),
        allOnOneLine]

end Content

/-- Written out, the stretches of a node behind its indentation are its HTML. -/
theorem render_eq_written {n : Node} (h : renderable n = true) (depth : Int) :
    render depth n = indentation depth ++ written (stretches depth n) := by
  induction n using induction_content generalizing depth with
  | text s => simp [render, stretches, written, Stretch.text]
  | comment s => simp [render, stretches, written, Stretch.text, String.append_assoc]
  | bare => cases h
  | element tag attrs content ih =>
      rw [renderable] at h
      rw [render, stretches]
      cases hvoid : isVoid tag with
      | true => simp [written, Stretch.text]
      | false =>
          cases hraw : isRaw tag with
          | true => simp [written, Stretch.text, String.append_assoc]
          | false =>
              -- Only here is the content rendered, so only here has it to be renderable.
              rw [hvoid, hraw, Bool.or_self, Bool.false_or, allRenderable_eq_all,
                List.all_eq_true] at h
              have hcontent := fun n hn => ih n hn (h n hn)
              cases isPreserve tag || content.all isText with
              | true =>
                  simp [renderInline_eq_written hcontent, Stretch.written_append, written,
                    Stretch.text, String.append_assoc]
              | false =>
                  simp [renderLines_eq_written hcontent, Stretch.written_append, written,
                    Stretch.text, String.append_assoc]

/-- Without its line breaks a node is compact. -/
theorem written_filter_stretches (n : Node) (depth : Int) :
    written ((stretches depth n).filter Stretch.isMarkup) = compact n := by
  induction n using induction_content generalizing depth with
  | text s => simp [stretches, compact, written, Stretch.text]
  | comment s => simp [stretches, compact, written, Stretch.text]
  | bare => rfl
  | element tag attrs content ih =>
      rw [stretches, compact]
      cases isVoid tag with
      | true => simp [written, Stretch.text]
      | false =>
          cases isRaw tag with
          | true => simp [written, Stretch.text, String.append_assoc]
          | false =>
              cases isPreserve tag || content.all isText with
              | true =>
                  simp [filter_stretchesInline ih, Stretch.written_append, written, Stretch.text,
                    String.append_assoc]
              | false =>
                  simp [filter_stretchesOnLines ih, Stretch.written_append, written, Stretch.text,
                    String.append_assoc]

private theorem all_isMarkup_stretches (n : Node) (depth : Int) :
    (stretches depth n).all Stretch.isMarkup = onOneLine n := by
  induction n using induction_content generalizing depth with
  | text s | comment s | bare => rfl
  | element tag attrs content ih =>
      rw [stretches, onOneLine]
      cases isVoid tag with
      | true => rfl
      | false =>
          cases isRaw tag with
          | true => rfl
          | false =>
              cases isPreserve tag || content.all isText with
              | true => simp [all_stretchesInline ih, Stretch.isMarkup]
              | false => simp [Stretch.isMarkup]

/-! ## Elements in which white space matters -/

private theorem kind_of_isPreserve {tag : String} (h : isPreserve tag = true) :
    isVoid tag = false ∧ isRaw tag = false := by
  have htag : tag = "pre" ∨ tag = "textarea" := by
    simpa [isPreserve, preserveTags] using h
  rcases htag with rfl | rfl <;> decide

private theorem stretches_of_isPreserve {tag : String} (h : isPreserve tag = true)
    (attrs : Attributes) (content : List Node) (depth : Int) :
    stretches depth (.element tag attrs content) =
      .markup (openTag tag attrs) :: (stretchesInline content ++ [.markup (closeTag tag)]) := by
  obtain ⟨hvoid, hraw⟩ := kind_of_isPreserve h
  simp [stretches, hvoid, hraw, h]

/-- The HTML of an element in which white space matters is its indentation and then the same
stretches at all depths: its two tags and between them the stretches of its children, with no break
in front of any of these. Without the breaks inside the children they are its compact HTML, and so
they are with them exactly if no element among or below the children is laid out on lines. -/
theorem render_preserved {tag : String} (htag : isPreserve tag = true) (attrs : Attributes)
    (content : List Node) :
    (allRenderable content = false ∧
      ∀ depth, render? (.element tag attrs content) depth = .error .unrenderable) ∨
    ∃ ps, ps = .markup (openTag tag attrs) ::
        (stretchesInline content ++ [.markup (closeTag tag)]) ∧
      (∀ depth, render? (.element tag attrs content) depth =
        .ok (indentation depth ++ written ps)) ∧
      written (ps.filter Stretch.isMarkup) = compact (.element tag attrs content) ∧
      (written ps = compact (.element tag attrs content) ↔ allOnOneLine content = true) := by
  obtain ⟨hvoid, hraw⟩ := kind_of_isPreserve htag
  have hrenderable : renderable (.element tag attrs content) = allRenderable content := by
    simp [renderable, hvoid, hraw]
  cases hcontent : allRenderable content with
  | false =>
      refine .inl ⟨rfl, fun depth => ?_⟩
      rw [render?, hrenderable, hcontent]
      rfl
  | true =>
      rw [hcontent] at hrenderable
      have hstretches := stretches_of_isPreserve htag attrs content
      have hcompact := written_filter_stretches (.element tag attrs content) 0
      have hline := all_isMarkup_stretches (.element tag attrs content) 0
      have honOneLine : onOneLine (.element tag attrs content) = allOnOneLine content := by
        simp [onOneLine, hvoid, hraw, htag]
      rw [hstretches] at hcompact hline
      refine .inr ⟨_, rfl, fun depth => ?_, hcompact, ?_⟩
      · rw [render?, if_pos hrenderable, render_eq_written hrenderable, hstretches]
      · rw [← hcompact, Stretch.written_filter_eq_iff, hline, honOneLine]

/-- A `pre` in which only texts have elements around them keeps to its line. -/
theorem render_preserved_code :
    isPreserve "pre" = true ∧
      render? (.element "pre" [] [.text "a\n", .element "code" [] [.text "b"]]) 1 =
        .ok (indentation 1 ++ "<pre>a\n<code>b</code></pre>") := by
  have htag : isPreserve "pre" = true := by decide
  refine ⟨htag, ?_⟩
  rcases render_preserved htag [] [.text "a\n", .element "code" [] [.text "b"]] with
    ⟨hfault, -⟩ | ⟨ps, -, htext, -, hcompact⟩
  · cases hfault
  · rw [htext, hcompact.2 (by decide)]
    rfl

/-- An element inside a `pre` that has an element in it is laid out on lines. -/
theorem line_broken_inside_pre :
    ∃ n : Node, n = .element "pre" [] [.element "code" [] [.element "b" [] [.text "x"]]] ∧
      n.render? 0 = .ok "<pre><code>\n  <b>x</b>\n</code></pre>" ∧
      n.compact = "<pre><code><b>x</b></code></pre>" ∧
      n.render? 0 ≠ .ok (indentation 0 ++ n.compact) := by
  refine ⟨_, rfl, rfl, rfl, ?_⟩
  intro h
  have htext : "<pre><code>\n  <b>x</b>\n</code></pre>" = "<pre><code><b>x</b></code></pre>" :=
    Except.ok.inj h
  exact absurd htext (by decide)

end Node

end PageForms
