import PageForms.Markup.Document
import PageForms.Proofs.Except
import PageForms.Proofs.Markup.Builder

/-!
# The parts every document has

Whatever nodes a document is made of, one of them is an `html` element and one of the nodes in it a
`body`. A document whose first `html` element has a `body` stays as it is. No element of a document
has two attributes of one name.
-/

namespace PageForms.Document

theorem eq_of_isElement {tag : String} {n : Node} (h : n.isElement tag = true) :
    ∃ attrs content, n = .element tag attrs content := by
  cases n with
  | element t attrs content =>
      rw [beq_iff_eq.1 h]
      exact ⟨attrs, content, rfl⟩
  | _ => cases h

/-- The first of the nodes that is an element with this tag. -/
theorem exists_first {tag : String} {nodes : List Node}
    (h : nodes.any (Node.isElement tag) = true) :
    ∃ before attrs content after, nodes = before ++ .element tag attrs content :: after ∧
      ∀ n ∈ before, n.isElement tag = false := by
  induction nodes with
  | nil => cases h
  | cons n nodes ih =>
      by_cases hn : n.isElement tag = true
      · obtain ⟨attrs, content, rfl⟩ := eq_of_isElement hn
        exact ⟨[], attrs, content, nodes, rfl, by simp⟩
      · rw [Bool.not_eq_true] at hn
        rw [List.any_cons, hn, Bool.false_or] at h
        obtain ⟨before, attrs, content, after, rfl, hbefore⟩ := ih h
        refine ⟨n :: before, attrs, content, after, rfl, ?_⟩
        intro m hm
        rcases List.mem_cons.1 hm with rfl | hm
        · exact hn
        · exact hbefore m hm

theorem mapHtml_append (f : List Node → List Node) {before : List Node} (attrs : Attributes)
    (content after : List Node) (h : ∀ n ∈ before, n.isElement "html" = false) :
    mapHtml f (before ++ .element "html" attrs content :: after) =
      before ++ .element "html" attrs (f content) :: after := by
  induction before with
  | nil => rfl
  | cons n before ih =>
      have hrest := ih fun m hm => h m (by simp [hm])
      have hn := h n (by simp)
      cases n with
      | element tag attrs' content' =>
          rw [List.cons_append, mapHtml, if_neg (beq_eq_false_iff_ne.1 hn), hrest]
          rfl
      | _ =>
          rw [List.cons_append, mapHtml, hrest]
          · rfl
          · simp

private theorem any_ensureHtml (nodes : List Node) :
    (ensureHtml nodes).any (Node.isElement "html") = true := by
  unfold ensureHtml
  split
  · assumption
  · simp [Node.isElement]

private theorem any_ensureBody (content : List Node) :
    (ensureBody content).any (Node.isElement "body") = true := by
  unfold ensureBody
  split
  · assumption
  · simp [Node.isElement]

/-- The first `html` element of a document has a `body`. -/
theorem exists_html_ensure (nodes : List Node) :
    ∃ before attrs content after,
      ensure nodes = before ++ .element "html" attrs content :: after ∧
      (∀ n ∈ before, n.isElement "html" = false) ∧
      content.any (Node.isElement "body") = true := by
  obtain ⟨before, attrs, inner, after, hnodes, hbefore⟩ := exists_first (any_ensureHtml nodes)
  refine ⟨before, attrs, ensureBody inner, after, ?_, hbefore, any_ensureBody inner⟩
  rw [ensure, hnodes, mapHtml_append _ _ _ _ hbefore]

/-- The first `html` element of a document and its first `body`. -/
theorem exists_body_ensure (nodes : List Node) :
    ∃ before attrs front bodyAttrs content back after,
      ensure nodes = before ++
        .element "html" attrs (front ++ .element "body" bodyAttrs content :: back) :: after := by
  obtain ⟨before, attrs, inner, after, hnodes, -, hinner⟩ := exists_html_ensure nodes
  obtain ⟨front, bodyAttrs, content, back, rfl, -⟩ := exists_first hinner
  exact ⟨before, attrs, front, bodyAttrs, content, back, after, hnodes⟩

/-- Where there is an `html` element, only the content of the first one changes. -/
theorem ensure_append {before : List Node} (h : ∀ n ∈ before, n.isElement "html" = false)
    (attrs : Attributes) (content after : List Node) :
    ensure (before ++ .element "html" attrs content :: after) =
      before ++ .element "html" attrs (ensureBody content) :: after := by
  have hhtml : (before ++ .element "html" attrs content :: after).any (Node.isElement "html") =
      true := by
    simp [Node.isElement]
  rw [ensure, ensureHtml, if_pos hhtml, mapHtml_append _ _ _ _ h]

/-- A document whose first `html` element has a body is left as it is. -/
theorem ensure_of_any_body {before after content : List Node} {attrs : Attributes}
    (hbefore : ∀ n ∈ before, n.isElement "html" = false)
    (hbody : content.any (Node.isElement "body") = true) :
    ensure (before ++ .element "html" attrs content :: after) =
      before ++ .element "html" attrs content :: after := by
  rw [ensure_append hbefore, ensureBody, if_pos hbody]

/-! ## Elements of a document -/

theorem mem_splitHead {bodyStarted : Bool} {nodes : List Node} {n : Node}
    (h : n ∈ (splitHead bodyStarted nodes).1 ++ (splitHead bodyStarted nodes).2) : n ∈ nodes := by
  induction nodes generalizing bodyStarted with
  | nil => cases h
  | cons m nodes ih =>
      rw [splitHead] at h
      split at h
      · rcases List.mem_cons.1 h with rfl | h
        · simp
        · exact List.mem_cons_of_mem _ (ih h)
      · rcases List.mem_append.1 h with h | h
        · exact List.mem_cons_of_mem _ (ih (List.mem_append_left _ h))
        · rcases List.mem_cons.1 h with rfl | h
          · simp
          · exact List.mem_cons_of_mem _ (ih (List.mem_append_right _ h))

variable {p : String → Attributes → Prop}

private theorem each_ensureBody (hbody : p "body" []) {content : List Node}
    (h : ∀ n ∈ content, Node.Each p n) : ∀ n ∈ ensureBody content, Node.Each p n := by
  unfold ensureBody
  split
  · exact h
  · intro n hn
    rcases List.mem_append.1 hn with hn | hn
    · exact h n (mem_splitHead (List.mem_append_left _ hn))
    · rw [List.mem_singleton.1 hn]
      exact .element hbody fun m hm => h m (mem_splitHead (List.mem_append_right _ hm))

private theorem each_ensureHtml (hhtml : p "html" []) {nodes : List Node}
    (h : ∀ n ∈ nodes, Node.Each p n) : ∀ n ∈ ensureHtml nodes, Node.Each p n := by
  unfold ensureHtml
  split
  · exact h
  · intro n hn
    rcases List.mem_append.1 hn with hn | hn
    · exact h n (List.mem_filter.1 hn).1
    · rw [List.mem_singleton.1 hn]
      exact .element hhtml fun m hm => h m (List.mem_filter.1 hm).1

private theorem each_ensure (hhtml : p "html" []) (hbody : p "body" []) {nodes : List Node}
    (h : ∀ n ∈ nodes, Node.Each p n) : ∀ n ∈ ensure nodes, Node.Each p n := by
  have hnodes := each_ensureHtml hhtml h
  obtain ⟨before, attrs, inner, after, hsplit, hbefore⟩ := exists_first (any_ensureHtml nodes)
  rw [hsplit] at hnodes
  rw [ensure, hsplit, mapHtml_append _ _ _ _ hbefore]
  intro n hn
  rcases List.mem_append.1 hn with hn | hn
  · exact hnodes n (by simp [hn])
  rcases List.mem_cons.1 hn with rfl | hn
  · have helement := (hnodes (.element "html" attrs inner) (by simp)).of_element
    exact .element helement.1 (each_ensureBody hbody helement.2)
  · exact hnodes n (by simp [hn])

/-- No element of a document has two attributes of one name. -/
theorem nodup_of_parse {text : String} {nodes : List Node} (h : parse text = .ok nodes) :
    ∀ n ∈ nodes, n.Each fun _ attrs => (attrs.map Prod.fst).Nodup := by
  obtain ⟨events, -, h⟩ := bind_eq_ok h
  cases h
  apply each_ensure List.nodup_nil List.nodup_nil
  exact Builder.each_content_build (fun _ attrs => Named.nodup_ofList attrs) events

end PageForms.Document
