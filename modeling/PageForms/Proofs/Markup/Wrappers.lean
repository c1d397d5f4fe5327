import PageForms.Proofs.Markup.Document
import PageForms.Proofs.Markup.DocumentOrder

/-!
# The wrappers that a document gets

A document gets at most one `html` element and at most one `body`, each only where there is none.
Nothing is lost by it: `Document.dissolve` puts the content of a wrapper back in its place, and what
comes out has the nodes that were there, whole. Comments may have moved to the front, and `head`
elements to the front of what is in the `html` element; all other nodes stand in their order.
-/

namespace PageForms

namespace Node

def occurrences (tag : String) (nodes : List Node) : Nat :=
  (preorderAll nodes).countP (isElement tag)

private theorem occurrences_append (tag : String) (ms ns : List Node) :
    occurrences tag (ms ++ ns) = occurrences tag ms + occurrences tag ns := by
  rw [occurrences, preorderAll_append, List.countP_append]
  rfl

private theorem occurrences_nil (tag : String) : occurrences tag [] = 0 := rfl

private theorem occurrences_cons (tag : String) (n : Node) (ns : List Node) :
    occurrences tag (n :: ns) = (preorder n).countP (isElement tag) + occurrences tag ns := by
  rw [occurrences, preorderAll, List.countP_append]
  rfl

private theorem occurrences_element (tag t : String) (attrs : Attributes)
    (content after : List Node) :
    occurrences tag (.element t attrs content :: after) =
      (occurrences tag content + if tag = t then 1 else 0) + occurrences tag after := by
  have htag : isElement tag (.element t attrs content) = decide (tag = t) := by
    rw [isElement, Bool.eq_iff_iff, beq_iff_eq, decide_eq_true_eq, eq_comm]
  rw [occurrences_cons, preorder, List.countP_cons, htag]
  simp only [decide_eq_true_eq]
  rfl

private theorem occurrences_perm (tag : String) {ms ns : List Node} (h : ms.Perm ns) :
    occurrences tag ms = occurrences tag ns := by
  induction h with
  | nil => rfl
  | cons n _ ih => rw [occurrences_cons, ih, ← occurrences_cons]
  | swap m n ns =>
      simp only [occurrences_cons]
      omega
  | trans _ _ ih ih' => rw [ih, ih']

end Node

namespace Document

/-! ## Nodes in another order -/

/-- The node is not moved: it is neither a comment nor a `head` element. -/
def staysInOrder (n : Node) : Bool :=
  !(n.isComment || n.isElement "head")

/-- The second list has the nodes of the first; only comments and `head` elements have moved. -/
structure Rearranged (nodes nodes' : List Node) : Prop where
  perm : nodes'.Perm nodes
  order : nodes'.filter staysInOrder = nodes.filter staysInOrder

namespace Rearranged

variable {ms ns ks : List Node}

theorem trans (h : Rearranged ms ns) (h' : Rearranged ns ks) : Rearranged ms ks :=
  ⟨h'.perm.trans h.perm, h'.order.trans h.order⟩

theorem append_left (h : Rearranged ms ns) (front : List Node) :
    Rearranged (front ++ ms) (front ++ ns) := by
  refine ⟨h.perm.append_left front, ?_⟩
  rw [List.filter_append, List.filter_append, h.order]

end Rearranged

private theorem isElement_of_mem_comments {nodes : List Node} {n : Node}
    (h : n ∈ nodes.filter Node.isComment) (tag : String) : n.isElement tag = false := by
  have hcomment := (List.mem_filter.1 h).2
  cases n with
  | comment s => rfl
  | _ => cases hcomment

private theorem rearranged_comments (nodes : List Node) :
    Rearranged nodes (nodes.filter Node.isComment ++ nodes.filter fun n => !n.isComment) := by
  refine ⟨List.filter_append_perm _ _, ?_⟩
  have hcomments : (nodes.filter Node.isComment).filter staysInOrder = [] := by
    rw [List.filter_filter, List.filter_eq_nil_iff]
    intro n _
    cases n <;> simp [staysInOrder, Node.isComment]
  have hothers : (nodes.filter fun n => !n.isComment).filter staysInOrder =
      nodes.filter staysInOrder := by
    rw [List.filter_filter]
    apply List.filter_congr
    intro n _
    cases n <;> simp [staysInOrder, Node.isComment]
  rw [List.filter_append, hcomments, hothers, List.nil_append]

/-- Once the body has started, only `head` elements are put in front of it. -/
theorem filter_splitHead_started (nodes : List Node) :
    (splitHead true nodes).1.filter staysInOrder = [] := by
  induction nodes with
  | nil => rfl
  | cons n nodes ih =>
      rw [splitHead]
      split
      · next hn =>
        have hhead : staysInOrder n = false := by
          cases n <;> simp_all [belongsInHead, staysInOrder, Node.isElement]
        simp only [List.filter_cons, hhead, ih, Bool.false_eq_true, if_false]
      · exact ih

private theorem rearranged_splitHead (bodyStarted : Bool) (nodes : List Node) :
    Rearranged nodes ((splitHead bodyStarted nodes).1 ++ (splitHead bodyStarted nodes).2) := by
  induction nodes generalizing bodyStarted with
  | nil => exact ⟨.refl _, rfl⟩
  | cons n nodes ih =>
      rw [splitHead]
      split
      · exact (ih bodyStarted).append_left [n]
      · -- The body starts with this node: only `head` elements behind it come to the front.
        have hrest := ih true
        refine ⟨List.perm_middle.trans (hrest.perm.cons n), ?_⟩
        have horder := hrest.order
        rw [List.filter_append, filter_splitHead_started, List.nil_append] at horder
        rw [List.filter_append, filter_splitHead_started, List.nil_append, List.filter_cons,
          List.filter_cons, horder]

/-! ## Dissolving wrappers -/

/-- What stands in the node's place when elements with this tag are dissolved. -/
def dissolved (tag : String) (n : Node) : List Node :=
  match n with
  | .element t attrs content => if t = tag then content else [.element t attrs content]
  | n => [n]

def dissolve (tag : String) (nodes : List Node) : List Node :=
  nodes.flatMap (dissolved tag)

variable {tag : String}

private theorem dissolved_of_other {n : Node} (h : n.isElement tag = false) :
    dissolved tag n = [n] := by
  cases n with
  | element t attrs content => exact if_neg (beq_eq_false_iff_ne.1 h)
  | _ => rfl

private theorem dissolve_of_none {nodes : List Node} (h : ∀ n ∈ nodes, n.isElement tag = false) :
    dissolve tag nodes = nodes := by
  induction nodes with
  | nil => rfl
  | cons n nodes ih =>
      rw [dissolve, List.flatMap_cons, dissolved_of_other (h n (by simp))]
      exact congrArg (n :: ·) (ih fun m hm => h m (by simp [hm]))

private theorem dissolve_append (tag : String) (ms ns : List Node) :
    dissolve tag (ms ++ ns) = dissolve tag ms ++ dissolve tag ns :=
  List.flatMap_append

/-- Dissolving the only element with its tag leaves its content behind the other nodes. -/
theorem dissolve_wrapper {front : List Node} (h : ∀ n ∈ front, n.isElement tag = false)
    (attrs : Attributes) (content : List Node) :
    dissolve tag (front ++ [.element tag attrs content]) = front ++ content := by
  rw [dissolve_append, dissolve_of_none h]
  simp [dissolve, dissolved]

/-! ## A body -/

section Body

variable {content : List Node}

private theorem ensureBody_of_any (h : content.any (Node.isElement "body") = true) :
    ensureBody content = content := by
  rw [ensureBody, if_pos h]

private theorem ensureBody_of_none (h : content.any (Node.isElement "body") = false) :
    ensureBody content =
      (splitHead false content).1 ++ [.element "body" [] (splitHead false content).2] := by
  rw [ensureBody, if_neg (by simp [h])]

private theorem rearranged_ensureBody (h : content.any (Node.isElement "body") = false) :
    Rearranged content (dissolve "body" (ensureBody content)) := by
  have hfront : ∀ n ∈ (splitHead false content).1, n.isElement "body" = false := by
    intro n hn
    have hmem := mem_splitHead (List.mem_append_left (splitHead false content).2 hn)
    exact (Bool.not_eq_true _).mp (List.any_eq_false.1 h n hmem)
  rw [ensureBody_of_none h, dissolve_wrapper hfront]
  exact rearranged_splitHead false content

private theorem occurrences_ensureBody (tag : String) (content : List Node) :
    Node.occurrences tag (ensureBody content) = Node.occurrences tag content +
      if content.any (Node.isElement "body") = false ∧ tag = "body" then 1 else 0 := by
  cases h : content.any (Node.isElement "body") with
  | true => simp [ensureBody_of_any h]
  | false =>
      have hperm := Node.occurrences_perm tag (rearranged_splitHead false content).perm
      rw [Node.occurrences_append] at hperm
      rw [ensureBody_of_none h, Node.occurrences_append, Node.occurrences_element,
        Node.occurrences_nil, ← hperm]
      simp only [true_and]
      omega

end Body

/-! ## An `html` element -/

def addsHtml (nodes : List Node) : Bool :=
  !nodes.any (Node.isElement "html")

/-- The content of the first `html` element, or the nodes themselves if there is none. -/
def htmlContent (nodes : List Node) : List Node :=
  match nodes.find? (Node.isElement "html") with
  | some (.element _ _ content) => content
  | _ => nodes

def addsBody (nodes : List Node) : Bool :=
  !(htmlContent nodes).any (Node.isElement "body")

private theorem htmlContent_append {before : List Node}
    (h : ∀ n ∈ before, n.isElement "html" = false) (attrs : Attributes)
    (content after : List Node) :
    htmlContent (before ++ .element "html" attrs content :: after) = content := by
  have hfind : (before ++ .element "html" attrs content :: after).find? (Node.isElement "html") =
      some (.element "html" attrs content) := by
    rw [List.find?_append, List.find?_eq_none.2 (by simpa using h), Option.none_or]
    rfl
  rw [htmlContent, hfind]

private theorem htmlContent_of_none {nodes : List Node}
    (h : nodes.any (Node.isElement "html") = false) : htmlContent nodes = nodes := by
  rw [htmlContent, List.find?_eq_none.2 (by simpa using h)]

/-- A document without an `html` element gets one around everything but the comments. -/
theorem ensure_of_none {nodes : List Node} (h : nodes.any (Node.isElement "html") = false) :
    ensure nodes = nodes.filter Node.isComment ++
      [.element "html" [] (ensureBody (nodes.filter fun n => !n.isComment))] := by
  rw [ensure, ensureHtml, if_neg (by simp [h]),
    mapHtml_append _ _ _ _ fun n hn => isElement_of_mem_comments hn "html"]

private theorem any_body_filter (nodes : List Node) :
    (nodes.filter fun n => !n.isComment).any (Node.isElement "body") =
      nodes.any (Node.isElement "body") := by
  rw [List.any_filter]
  congr 1
  funext n
  cases n <;> simp [Node.isComment, Node.isElement]

/-- Every element of a document was there before, but for the wrappers that were added. -/
theorem occurrences_ensure (tag : String) (nodes : List Node) :
    Node.occurrences tag (ensure nodes) = Node.occurrences tag nodes +
      (if addsHtml nodes = true ∧ tag = "html" then 1 else 0) +
      (if addsBody nodes = true ∧ tag = "body" then 1 else 0) := by
  cases h : nodes.any (Node.isElement "html") with
  | false =>
      have hcontent := htmlContent_of_none h
      have hperm := Node.occurrences_perm tag (rearranged_comments nodes).perm
      rw [Node.occurrences_append] at hperm
      rw [ensure_of_none h, Node.occurrences_append, Node.occurrences_element,
        Node.occurrences_nil, occurrences_ensureBody, any_body_filter, addsHtml, addsBody, hcontent,
        h]
      simp only [Bool.not_false, Bool.not_eq_true', true_and]
      omega
  | true =>
      obtain ⟨before, attrs, content, after, rfl, hbefore⟩ := exists_first h
      have hcontent := htmlContent_append hbefore attrs content after
      rw [ensure_append hbefore, addsHtml, addsBody, hcontent, h]
      simp only [Node.occurrences_append, Node.occurrences_element, occurrences_ensureBody,
        Bool.not_true, Bool.not_eq_true', Bool.false_eq_true, false_and, if_false]
      omega

/-! ## What is left without the wrappers -/

/-- The document is made of the nodes by adding wrappers: it is no other than the nodes, or once the
wrappers are dissolved it has the same nodes at its top, or in its first `html` element if it had
one before. -/
inductive Wraps : List Node → List Node → Prop
  | nothing {nodes : List Node} (hhtml : addsHtml nodes = false) (hbody : addsBody nodes = false) :
      Wraps nodes nodes
  | body {before content content' after : List Node} {attrs : Attributes}
      (hfirst : ∀ n ∈ before, n.isElement "html" = false)
      (hbody : content.any (Node.isElement "body") = false)
      (hcontent : Rearranged content (dissolve "body" content')) :
      Wraps (before ++ .element "html" attrs content :: after)
        (before ++ .element "html" attrs content' :: after)
  | html {nodes document : List Node} (hhtml : addsHtml nodes = true)
      (hbody : addsBody nodes = false) (hnodes : Rearranged nodes (dissolve "html" document)) :
      Wraps nodes document
  | both {nodes document : List Node} (hhtml : addsHtml nodes = true)
      (hbody : addsBody nodes = true)
      (hnodes : Rearranged nodes (dissolve "body" (dissolve "html" document))) :
      Wraps nodes document

private theorem wraps_ensure_of_none {nodes : List Node}
    (h : nodes.any (Node.isElement "html") = false) : Wraps nodes (ensure nodes) := by
  have hcomments : ∀ tag, ∀ n ∈ nodes.filter Node.isComment, n.isElement tag = false :=
    fun tag n hn => isElement_of_mem_comments hn tag
  have hhtml : addsHtml nodes = true := by rw [addsHtml, h]; rfl
  have hadds : addsBody nodes = !nodes.any (Node.isElement "body") := by
    rw [addsBody, htmlContent_of_none h]
  have hdissolve := dissolve_wrapper (hcomments "html") []
    (ensureBody (nodes.filter fun n => !n.isComment))
  rw [← ensure_of_none h] at hdissolve
  rw [← any_body_filter] at hadds
  cases hbody : (nodes.filter fun n => !n.isComment).any (Node.isElement "body") with
  | true =>
      rw [hbody] at hadds
      rw [ensureBody_of_any hbody] at hdissolve
      exact .html hhtml hadds (hdissolve ▸ rearranged_comments nodes)
  | false =>
      rw [hbody] at hadds
      refine .both hhtml hadds ?_
      rw [hdissolve, dissolve_append, dissolve_of_none (hcomments "body")]
      exact (rearranged_comments nodes).trans ((rearranged_ensureBody hbody).append_left _)

private theorem wraps_ensure (nodes : List Node) : Wraps nodes (ensure nodes) := by
  cases h : nodes.any (Node.isElement "html") with
  | false => exact wraps_ensure_of_none h
  | true =>
      have hhtml : addsHtml nodes = false := by rw [addsHtml, h]; rfl
      obtain ⟨before, attrs, content, after, rfl, hfirst⟩ := exists_first h
      have hcontent := htmlContent_append hfirst attrs content after
      rw [ensure_append hfirst]
      cases hbody : content.any (Node.isElement "body") with
      | true =>
          rw [ensureBody_of_any hbody]
          exact .nothing hhtml (by rw [addsBody, hcontent, hbody]; rfl)
      | false => exact .body hfirst hbody (rearranged_ensureBody hbody)

/-- Making nodes a document adds an `html` element only if there is none and a `body` only if there
is none in the first `html` element, and no other element; the first `html` element then has a
`body`; without the wrappers the nodes are there again, in their order but for comments and `head`
elements; and a document stays as it is. -/
theorem ensure_loses_nothing (nodes : List Node) :
    (∀ tag, Node.occurrences tag (ensure nodes) = Node.occurrences tag nodes +
      (if addsHtml nodes = true ∧ tag = "html" then 1 else 0) +
      (if addsBody nodes = true ∧ tag = "body" then 1 else 0)) ∧
    (∃ before attrs content after,
      ensure nodes = before ++ .element "html" attrs content :: after ∧
      (∀ n ∈ before, n.isElement "html" = false) ∧
      content.any (Node.isElement "body") = true) ∧
    Wraps nodes (ensure nodes) ∧
    ensure (ensure nodes) = ensure nodes := by
  refine ⟨fun tag => occurrences_ensure tag nodes, exists_html_ensure nodes, wraps_ensure nodes, ?_⟩
  obtain ⟨before, attrs, content, after, hdocument, hfirst, hbody⟩ := exists_html_ensure nodes
  rw [hdocument, ensure_of_any_body hfirst hbody]

-- The `head` comes before the text, but the `title` does not: the body has started.
example :
    ensure [.text "t", .comment "c", .element "head" [] [], .element "title" [] []] =
      [.comment "c", .element "html" [] [.element "head" [] [],
        .element "body" [] [.text "t", .element "title" [] []]]] := by
  rfl

end Document

end PageForms
