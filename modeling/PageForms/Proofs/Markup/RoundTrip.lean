import PageForms.Proofs.Markup.Document
import PageForms.Proofs.Markup.Replay
import PageForms.Proofs.Markup.Tags

/-!
# Rendered pages are parsed as what they were

Rendering puts elements on lines of their own, escapes texts and values and leaves scripts and
styles as they are. Parsing a rendered document gives the document back if it is canonical, that is
if none of its parts could be taken for something else.
-/

namespace PageForms

namespace Node

open Scanner Builder

/-! ## Canonical nodes -/

def holdsText (tag s : String) : Bool :=
  if isVoid tag then false
  else if isRaw tag then !s.isEmpty && !s.toList.contains '<'
  else if isPreserve tag then !s.isEmpty
  else !Text.allBlank s

def isTextOf (tag : String) : List Node → Bool
  | [.text s] => holdsText tag s
  | _ => false

def holdsNodes (tag : String) : Bool :=
  !(isVoid tag || isRaw tag || isPreserve tag)

mutual

/-- The node is an element or a comment in a form that its HTML determines: a comment without `>`;
names in small letters, digits and, for attributes, dashes; no two attributes of one name; and
content that is empty, one text that is kept, or elements and comments. -/
def isCanonical : Node → Bool
  | .text _ | .bare => false
  | .comment s => !s.toList.contains '>'
  | .element tag attrs content =>
    isTagName tag && attrs.all (fun a => isAttributeName a.1) &&
      decide (attrs.map Prod.fst).Nodup &&
      (content.isEmpty || isTextOf tag content || (holdsNodes tag && allCanonical content))

def allCanonical : List Node → Bool
  | [] => true
  | n :: ns => isCanonical n && allCanonical ns

end

private theorem allCanonical_eq_all (ns : List Node) : allCanonical ns = ns.all isCanonical := by
  induction ns with
  | nil => rfl
  | cons n ns ih => rw [allCanonical, ih, List.all_cons]

private theorem isText_of_isCanonical {n : Node} (h : n.isCanonical = true) : n.isText = false := by
  cases n with
  | text s => cases h
  | _ => rfl

private theorem addNodes_of_isCanonical {ns : List Node} (h : ∀ n ∈ ns, n.isCanonical = true)
    (content : List Node) : addNodes ns content = content ++ ns := by
  induction ns generalizing content with
  | nil => exact (List.append_nil content).symm
  | cons n ns ih =>
      have hn : addNode content n = content ++ [n] := by
        cases n with
        | text s => exact absurd (h (.text s) (by simp)) Bool.false_ne_true
        | _ => rfl
      rw [addNodes, List.foldl_cons, hn]
      exact (ih (fun m hm => h m (by simp [hm])) _).trans (List.append_assoc ..)

/-! ## Lines -/

def lineStart (depth : Int) : List Char :=
  '\n' :: (indentation depth).toList

private theorem mem_lineStart {depth : Int} {c : Char} (h : c ∈ lineStart depth) :
    c = '\n' ∨ c = ' ' := by
  rw [lineStart, indentation, Text.spaces, String.toList_ofList, List.mem_cons,
    List.mem_replicate] at h
  exact h.imp id And.right

private theorem allBlank_lineStart (depth : Int) :
    Text.allBlank (String.ofList (lineStart depth)) = true := by
  rw [Text.allBlank, String.toList_ofList, List.all_eq_true]
  intro c hc
  rcases mem_lineStart hc with rfl | rfl <;> rfl

private theorem scans_lineStart {tail : List Char} {events : List Event}
    (h : Scans ('<' :: tail) events) (depth : Int) :
    Scans (lineStart depth ++ '<' :: tail)
      (.data (String.ofList (lineStart depth)) :: events) := by
  apply h.data_append (List.cons_ne_nil _ _)
  · intro hmem
    rcases mem_lineStart hmem with h | h <;> exact absurd h (by decide)
  · apply Reference.decode_of_not_mem
    intro hmem
    rcases mem_lineStart hmem with h | h <;> exact absurd h (by decide)

/-- At every depth the HTML of the node, behind its indentation, scans to events that tell of the
node wherever white space is not kept. -/
def IsTold (n : Node) : Prop :=
  ∀ depth, ∃ tail events, (n.render depth).toList = (indentation depth).toList ++ '<' :: tail ∧
    Scans ('<' :: tail) events ∧
    ∀ tags, tags.any tagKeepsBlank = false → Tells tags [n] events

/-- Nodes on lines of their own are told by the events of their lines. -/
theorem exists_scans_renderLines {ns : List Node} (h : ∀ n ∈ ns, IsTold n) (depth : Int) :
    ∃ events, Scans (renderLines depth ns).toList events ∧
      ∀ tags, tags.any tagKeepsBlank = false → Tells tags ns events := by
  induction ns with
  | nil => exact ⟨[], Scans.nil, fun _ _ => .nil⟩
  | cons n ns ih =>
      obtain ⟨tail, events, hrender, hscans, htells⟩ := h n (by simp) depth
      obtain ⟨more, hmore, htellsMore⟩ := ih fun m hm => h m (by simp [hm])
      have htext : (renderLines depth (n :: ns)).toList =
          lineStart depth ++ '<' :: tail ++ (renderLines depth ns).toList := by
        simp [renderLines, hrender, lineStart]
      refine ⟨_, htext ▸ (scans_lineStart hscans depth).append hmore, ?_⟩
      intro tags htags
      have hboth := (htells tags htags).append (htellsMore tags htags)
      exact .blank (allBlank_lineStart depth) htags hboth

/-! ## Elements -/

/-- What is asked of the names of an element and its attributes. -/
structure HasCanonicalNames (tag : String) (attrs : Attributes) : Prop where
  tag : isTagName tag = true
  attributes : ∀ a ∈ attrs, isAttributeName a.1 = true
  distinct : (attrs.map Prod.fst).Nodup

variable {tag : String} {attrs : Attributes} {content : List Node}

/-- An element is told by its tags and by what tells of its content. -/
theorem isTold_element (hnames : HasCanonicalNames tag attrs) (hvoid : isVoid tag = false)
    (hcontent : addNodes content [] = content)
    (h : ∀ depth, ∃ body inner, (render depth (.element tag attrs content)).toList =
        (indentation depth).toList ++
          ((openTag tag attrs).toList ++ body ++ (closeTag tag).toList) ∧
      Scans ((openTag tag attrs).toList ++ body ++ (closeTag tag).toList)
        (.start tag attrs :: (inner ++ [.close tag])) ∧
      ∀ tags, tags.any tagKeepsBlank = false → Tells (tag :: tags) content inner) :
    IsTold (.element tag attrs content) := by
  intro depth
  obtain ⟨body, inner, hrender, hscans, htells⟩ := h depth
  rw [toList_openTag, List.cons_append, List.cons_append] at hrender hscans
  refine ⟨_, _, hrender, hscans, ?_⟩
  intro tags htags
  have htold : Tells tags [.element tag (Named.ofList attrs) content]
      (.start tag attrs :: (inner ++ [.close tag])) :=
    .element hvoid hcontent (htells tags htags) .nil
  rwa [Named.ofList_of_nodup hnames.distinct] at htold

private theorem isTold_void (hnames : HasCanonicalNames tag attrs) (hvoid : isVoid tag = true) :
    IsTold (.element tag attrs []) := by
  intro depth
  have hraw : isRaw tag = false := by
    have hall : voidTags.all (fun tag => !isRaw tag) = true := by decide
    simpa using List.all_eq_true.1 hall tag (List.contains_iff_mem.1 hvoid)
  have hscans := scans_openTag hnames.tag hnames.attributes hraw
  rw [toList_openTag] at hscans
  refine ⟨_, _, ?_, hscans, ?_⟩
  · rw [render, if_pos hvoid, String.toList_append, toList_openTag]
  · intro tags _
    have htold : Tells tags [.element tag (Named.ofList attrs) []] [.start tag attrs] :=
      .void hvoid .nil
    rwa [Named.ofList_of_nodup hnames.distinct] at htold

private theorem eq_text_of_isTextOf (h : isTextOf tag content = true) :
    ∃ s, content = [.text s] ∧ holdsText tag s = true := by
  unfold isTextOf at h
  split at h
  · next s => exact ⟨s, rfl, h⟩
  · cases h

private theorem ne_empty_of_holdsText {s : String} (h : holdsText tag s = true) : s ≠ "" := by
  rintro rfl
  unfold holdsText at h
  split at h
  · cases h
  split at h
  · cases h
  split at h <;> cases h

/-- A text that an element can hold is told by its character data. -/
theorem tells_text {s : String} (h : holdsText tag s = true) (tags : List String) :
    Tells (tag :: tags) [.text s] [.data s] := by
  refine .text ?_ .nil
  rw [List.any_cons, tagKeepsBlank]
  unfold holdsText at h
  split at h
  · cases h
  split at h
  · next hraw => simp [hraw]
  split at h
  · next hpreserve => simp [hpreserve]
  · exact .inl (by simpa using h)

private theorem isTold_raw (hnames : HasCanonicalNames tag attrs) (hvoid : isVoid tag = false)
    (hraw : isRaw tag = true) (hcontent : content = [] ∨ isTextOf tag content = true) :
    IsTold (.element tag attrs content) := by
  have hrender : ∀ depth, (render depth (.element tag attrs content)).toList =
      (indentation depth).toList ++
        ((openTag tag attrs).toList ++ (rawTexts content).toList ++ (closeTag tag).toList) := by
    intro depth
    rw [render, if_neg (by simp [hvoid]), if_pos hraw]
    simp
  rcases hcontent with rfl | htext
  · apply isTold_element hnames hvoid rfl
    intro depth
    refine ⟨_, [], hrender depth, ?_, fun _ _ => .nil⟩
    exact scans_rawElement hnames.tag hnames.attributes hraw List.not_mem_nil
  · obtain ⟨s, rfl, hs⟩ := eq_text_of_isTextOf htext
    have htext : (rawTexts [.text s]).toList = s.toList := by simp [rawTexts, rawText]
    have hheld := hs
    rw [holdsText, if_neg (by simp [hvoid]), if_pos hraw, Bool.and_eq_true] at hheld
    have hempty : s.toList.isEmpty = false := by
      rw [List.isEmpty_eq_false_iff, Ne, String.toList_eq_nil_iff]
      exact ne_empty_of_holdsText hs
    apply isTold_element hnames hvoid rfl
    intro depth
    refine ⟨_, [.data s], hrender depth, ?_, fun tags _ => tells_text hs tags⟩
    have hscans := scans_rawElement hnames.tag hnames.attributes hraw
      (by simpa using hheld.2 : '<' ∉ s.toList)
    rw [hempty, verbatim, String.ofList_toList] at hscans
    rw [htext]
    exact hscans

private theorem isTold_inline (hnames : HasCanonicalNames tag attrs) (hvoid : isVoid tag = false)
    (hraw : isRaw tag = false) (hcontent : content = [] ∨ isTextOf tag content = true) :
    IsTold (.element tag attrs content) := by
  have hopen := scans_openTag hnames.tag hnames.attributes hraw
  have hclose := scans_closeTag hnames.tag
  have hrender : ∀ depth, content.all isText = true →
      (render depth (.element tag attrs content)).toList = (indentation depth).toList ++
        ((openTag tag attrs).toList ++ (renderInline content).toList ++ (closeTag tag).toList) := by
    intro depth hall
    rw [render, if_neg (by simp [hvoid]), if_neg (by simp [hraw]), if_pos (by simp [hall])]
    simp
  rcases hcontent with rfl | htext
  · apply isTold_element hnames hvoid rfl
    intro depth
    refine ⟨_, [], hrender depth rfl, ?_, fun _ _ => .nil⟩
    exact (hopen.append .nil).append hclose
  · obtain ⟨s, rfl, hs⟩ := eq_text_of_isTextOf htext
    have htext : (renderInline [.text s]).toList = (escapeText s).toList := by
      simp [renderInline, render, indentation, Text.spaces]
    have hne := ne_empty_of_holdsText hs
    apply isTold_element hnames hvoid rfl
    intro depth
    refine ⟨_, [.data s], hrender depth rfl, ?_, fun tags _ => tells_text hs tags⟩
    rw [toList_closeTag] at hclose
    have hdata := hclose.data_append (Reference.escapeText_ne_nil hne)
      (Reference.not_mem_escapeText s) (Reference.decode_escapeText s)
    rw [htext, List.append_assoc, toList_closeTag]
    rw [String.ofList_toList] at hdata
    exact hopen.append hdata

private theorem isTold_lines (hnames : HasCanonicalNames tag attrs) (htag : holdsNodes tag = true)
    (hne : content ≠ []) (hcontent : ∀ n ∈ content, n.isCanonical = true)
    (htold : ∀ n ∈ content, IsTold n) : IsTold (.element tag attrs content) := by
  rw [holdsNodes, Bool.not_eq_true', Bool.or_eq_false_iff, Bool.or_eq_false_iff] at htag
  obtain ⟨⟨hvoid, hraw⟩, hpreserve⟩ := htag
  have hnotText : content.all isText = false := by
    obtain ⟨n, ns, rfl⟩ := List.exists_cons_of_ne_nil hne
    rw [List.all_cons, isText_of_isCanonical (hcontent n (by simp)), Bool.false_and]
  apply isTold_element hnames hvoid (addNodes_of_isCanonical hcontent [])
  intro depth
  obtain ⟨events, hscans, htells⟩ := exists_scans_renderLines htold (depth + 1)
  refine ⟨(renderLines (depth + 1) content).toList ++ lineStart depth,
    events ++ [.data (String.ofList (lineStart depth))], ?_, ?_, ?_⟩
  · rw [render, if_neg (by simp [hvoid]), if_neg (by simp [hraw]),
      if_neg (by simp [hpreserve, hnotText])]
    simp [lineStart]
  · have hclose := scans_closeTag hnames.tag
    rw [toList_closeTag] at hclose ⊢
    have hall := (scans_openTag hnames.tag hnames.attributes hraw).append
      (hscans.append (scans_lineStart hclose depth))
    simpa using hall
  · intro tags htags
    have hkeeps : (tag :: tags).any tagKeepsBlank = false := by
      rw [List.any_cons, tagKeepsBlank, hpreserve, hraw, htags]
      rfl
    have hlast : Tells (tag :: tags) [] [.data (String.ofList (lineStart depth))] :=
      .blank (allBlank_lineStart depth) hkeeps .nil
    have hall := (htells _ hkeeps).append hlast
    rwa [List.append_nil] at hall

private theorem isTold_comment {s : String} (h : '>' ∉ s.toList) : IsTold (.comment s) := by
  intro depth
  refine ⟨"!--".toList ++ s.toList ++ "-->".toList, [.comment s], ?_, scans_comment h,
    fun _ _ => .comment .nil⟩
  simp [render]

/-- The parts of what is asked of a canonical element. -/
theorem isCanonical_element (h : (Node.element tag attrs content).isCanonical = true) :
    HasCanonicalNames tag attrs ∧
      (content = [] ∨ isTextOf tag content = true ∨
        (holdsNodes tag = true ∧ ∀ n ∈ content, n.isCanonical = true)) := by
  simp only [isCanonical, allCanonical_eq_all, Bool.and_eq_true, Bool.or_eq_true,
    List.all_eq_true, decide_eq_true_eq, List.isEmpty_iff, or_assoc] at h
  obtain ⟨⟨⟨htag, hattrs⟩, hdistinct⟩, hcontent⟩ := h
  exact ⟨⟨htag, hattrs, hdistinct⟩, hcontent⟩

private theorem isTold_of_isCanonical {n : Node} (h : n.isCanonical = true) : IsTold n := by
  induction n using induction_content with
  | text s => cases h
  | bare => cases h
  | comment s => exact isTold_comment (by simpa [isCanonical] using h)
  | element tag attrs content ih =>
      obtain ⟨hnames, hcontent⟩ := isCanonical_element h
      cases hvoid : isVoid tag with
      | true =>
          rcases hcontent with rfl | htext | ⟨htag, -⟩
          · exact isTold_void hnames hvoid
          · obtain ⟨s, -, hs⟩ := eq_text_of_isTextOf htext
            rw [holdsText, if_pos hvoid] at hs
            cases hs
          · rw [holdsNodes, hvoid] at htag
            cases htag
      | false =>
          by_cases hlines : content ≠ [] ∧ isTextOf tag content = false
          · obtain ⟨htag, hnodes⟩ := (hcontent.resolve_left hlines.1).resolve_left
              (by simp [hlines.2])
            exact isTold_lines hnames htag hlines.1 hnodes fun n hn => ih n hn (hnodes n hn)
          · have hshort : content = [] ∨ isTextOf tag content = true := by
              by_cases hnil : content = []
              · exact .inl hnil
              · exact .inr (by simpa [hnil] using hlines)
            cases hraw : isRaw tag with
            | true => exact isTold_raw hnames hvoid hraw hshort
            | false => exact isTold_inline hnames hvoid hraw hshort

theorem allRenderable_eq_all (ns : List Node) : allRenderable ns = ns.all renderable := by
  induction ns with
  | nil => rfl
  | cons n ns ih => rw [allRenderable, ih, List.all_cons]

private theorem renderable_of_isCanonical {n : Node} (h : n.isCanonical = true) :
    n.renderable = true := by
  induction n using induction_content with
  | text s => cases h
  | bare => cases h
  | comment s => rfl
  | element tag attrs content ih =>
      have hcontent : content.all renderable = true := by
        rcases (isCanonical_element h).2 with rfl | htext | ⟨-, hnodes⟩
        · rfl
        · obtain ⟨s, rfl, -⟩ := eq_text_of_isTextOf htext
          rfl
        · rw [List.all_eq_true]
          exact fun n hn => ih n hn (hnodes n hn)
      rw [renderable, allRenderable_eq_all, hcontent, Bool.or_true]

end Node

/-! ## Documents -/

namespace Document

open Scanner Builder

/-- The document consists of canonical elements and comments, and its first `html` element has a
`body`. -/
def isCanonical (nodes : List Node) : Bool :=
  nodes.all Node.isCanonical &&
    match nodes.find? (Node.isElement "html") with
    | some (.element _ _ content) => content.any (Node.isElement "body")
    | _ => false

private theorem ensure_of_isCanonical {nodes : List Node} (h : isCanonical nodes = true) :
    ensure nodes = nodes := by
  rw [isCanonical, Bool.and_eq_true] at h
  obtain ⟨-, hbody⟩ := h
  split at hbody
  · next tag attrs content hfind =>
    obtain ⟨hhtml, before, after, rfl, hbefore⟩ := List.find?_eq_some_iff_append.1 hfind
    obtain rfl := beq_iff_eq.1 hhtml
    exact ensure_of_any_body (fun n hn => by simpa using hbefore n hn) hbody
  · cases hbody

/-- A line of the page comes to its events and the white space that ends it. -/
theorem scanFrom_line {cs rest : List Char} {events more : List Event} (hcs : Scans cs events)
    (hrest : ∀ c ∈ rest.head?, c = '<') (hmore : scanFrom none rest = .ok more) :
    scanFrom none (cs ++ '\n' :: rest) = .ok (events ++ .data "\n" :: more) := by
  have hdata : scanFrom none (['\n'] ++ rest) =
      (Event.data (String.ofList ['\n']) :: ·) <$> scanFrom none rest :=
    scanFrom_data (by decide) (by decide) hrest (Reference.decode_of_not_mem (by decide))
  rw [hcs, ← List.singleton_append, hdata, hmore]
  rfl

def linesText (lines : List String) : List Char :=
  lines.flatMap fun line => line.toList ++ ['\n']

private theorem toList_joinWith {lines : List String} (h : lines ≠ []) :
    (Text.joinWith "\n" lines ++ "\n").toList = linesText lines := by
  induction lines with
  | nil => exact absurd rfl h
  | cons line lines ih =>
      cases lines with
      | nil => simp [Text.joinWith, linesText]
      | cons next lines =>
          have hrest := ih (List.cons_ne_nil next lines)
          rw [linesText, List.flatMap_cons, ← linesText, ← hrest]
          simp [Text.joinWith]

/-- The lines of the nodes come to events that tell of the nodes. -/
theorem exists_scanFrom_nodes {nodes : List Node} (h : ∀ n ∈ nodes, n.IsTold) :
    (∀ c ∈ (linesText (nodes.map (Node.render 0))).head?, c = '<') ∧
    ∃ events, scanFrom none (linesText (nodes.map (Node.render 0))) = .ok events ∧
      Tells [] nodes events := by
  induction nodes with
  | nil =>
      refine ⟨by simp [linesText], [], ?_, .nil⟩
      rw [List.map_nil, linesText, List.flatMap_nil, scanFrom]
  | cons n nodes ih =>
      obtain ⟨tail, events, hrender, hscans, htells⟩ := h n (by simp) 0
      obtain ⟨hhead, more, hmore, htellsMore⟩ := ih fun m hm => h m (by simp [hm])
      have htext : linesText ((n :: nodes).map (Node.render 0)) =
          '<' :: tail ++ '\n' :: linesText (nodes.map (Node.render 0)) := by
        simp [linesText, hrender, Node.indentation, Text.spaces]
      rw [htext]
      refine ⟨by simp, _, scanFrom_line hscans hhead hmore, ?_⟩
      exact (htells [] rfl).append (.blank rfl rfl htellsMore)

private theorem ne_nil_of_isCanonical {nodes : List Node} (h : isCanonical nodes = true) :
    nodes ≠ [] := by
  rintro rfl
  cases h

/-- Whatever the document type, the page comes to events that tell of its nodes. -/
theorem exists_scan_page {nodes : List Node} {doctype : Option String} (hne : nodes ≠ [])
    (h : ∀ n ∈ nodes, n.IsTold) (hdoctype : ∀ name ∈ doctype, '>' ∉ name.toList) :
    ∃ events, scan (Node.page doctype nodes) = .ok events ∧ Tells [] nodes events := by
  obtain ⟨hhead, events, hscan, htells⟩ := exists_scanFrom_nodes h
  have hmap : nodes.map (Node.render 0) ≠ [] := by simpa using hne
  unfold scan Node.page
  split
  · simp only [List.nil_append, toList_joinWith hmap]
    exact ⟨events, hscan, htells⟩
  · simp only [List.nil_append, toList_joinWith hmap]
    exact ⟨events, hscan, htells⟩
  · next name _ =>
    have hline : Scans ("<!DOCTYPE " ++ name ++ ">").toList [] := by
      rw [String.toList_append, String.toList_append]
      exact scans_doctype (hdoctype name rfl)
    rw [toList_joinWith (by simp), List.singleton_append, linesText, List.flatMap_cons,
      ← linesText, List.append_assoc, List.singleton_append]
    exact ⟨_, scanFrom_line hline hhead hscan, .blank rfl rfl htells⟩

/-- Parsing a rendered page gives back the document it was rendered from. -/
theorem parse_page {nodes : List Node} {doctype : Option String} (h : isCanonical nodes = true)
    (hdoctype : ∀ name ∈ doctype, '>' ∉ name.toList) :
    ∃ text, Node.page? doctype nodes = .ok text ∧ parse text = .ok nodes := by
  have hnodes : ∀ n ∈ nodes, n.isCanonical = true := by
    rw [isCanonical, Bool.and_eq_true, List.all_eq_true] at h
    exact h.1
  have hrenderable : Node.allRenderable nodes = true := by
    rw [Node.allRenderable_eq_all, List.all_eq_true]
    exact fun n hn => Node.renderable_of_isCanonical (hnodes n hn)
  obtain ⟨events, hscan, htells⟩ := exists_scan_page (ne_nil_of_isCanonical h)
    (fun n hn => Node.isTold_of_isCanonical (hnodes n hn)) hdoctype
  have hbuild := htells.content_build (Node.addNodes_of_isCanonical hnodes [])
  refine ⟨Node.page doctype nodes, by rw [Node.page?, if_pos hrenderable], ?_⟩
  rw [parse, hscan, ok_bind, hbuild, ensure_of_isCanonical h]
  rfl

theorem parse_page_mixed :
    ∃ nodes text, nodes = [.comment "a--", .element "html" [("lang", some "\"<'&")]
        [.element "head" [] [.element "script" [("src", none)] [.text " a && b"],
          .element "link" [("data-x", some "")] []],
          .element "body" [] [.element "pre" [] [.text " \n"],
            .element "p" [] [.element "b" [] [], .comment ""], .element "i" [] [.text "&lt;"]]]] ∧
      Node.page? (some "html") nodes = .ok text ∧ parse text = .ok nodes := by
  have hdoctype : ∀ name ∈ some "html", '>' ∉ name.toList := by
    rintro name ⟨⟩
    decide
  obtain ⟨text, hpage, hparse⟩ := @parse_page [.comment "a--",
    .element "html" [("lang", some "\"<'&")]
      [.element "head" [] [.element "script" [("src", none)] [.text " a && b"],
        .element "link" [("data-x", some "")] []],
        .element "body" [] [.element "pre" [] [.text " \n"],
          .element "p" [] [.element "b" [] [], .comment ""], .element "i" [] [.text "&lt;"]]]]
    (some "html") (by decide +kernel) hdoctype
  exact ⟨_, text, rfl, hpage, hparse⟩

end Document

end PageForms
