import PageForms.Proofs.Markup.Document
import PageForms.Proofs.Markup.Tidy

/-!
# The elements at the top of a document

An element stands at the top of a tree if it was opened while no other one was open, so the tags at
the top can be told from the events: `openedAtTop`. A document has as many `html` elements at its
top as there are such tags, and one if there is none. Only the first of them is sure to have a
`body`.
-/

namespace PageForms

def Event.opened? : Event → Option String
  | .start tag _ | .startEnd tag _ => some tag
  | _ => none

def Node.topTags (nodes : List Node) : List String :=
  nodes.filterMap Node.tag?

namespace Node

private theorem topTags_append (ms ns : List Node) :
    topTags (ms ++ ns) = topTags ms ++ topTags ns :=
  List.filterMap_append

private theorem countP_isElement (tag : String) (nodes : List Node) :
    nodes.countP (isElement tag) = (topTags nodes).count tag := by
  induction nodes with
  | nil => rfl
  | cons n nodes ih =>
      rw [List.countP_cons, ih]
      cases n with
      | element t attrs content =>
          change _ = (t :: topTags nodes).count tag
          rw [List.count_cons]
          rfl
      | _ => rfl

end Node

namespace Builder

open Node (topTags topTags_append)

/-! ## Tags that are opened at the top -/

/-- The tags that events bring while no element is open, if elements with these tags are open before
them. -/
def openedAtTop (tags : List String) : List Event → List String
  | [] => []
  | event :: events =>
    (if tags.isEmpty then event.opened?.toList else []) ++
      openedAtTop (openAfter tags event) events

/-- What is open ends the tree, and of it only the outermost element is at the top. -/
theorem topTags_content (b : Builder) :
    topTags b.content = topTags b.root ++ b.tags.getLast?.toList := by
  have hnested : topTags (nested b.frames) = b.tags.getLast?.toList := by
    rcases List.eq_nil_or_concat b.frames with hnil | ⟨inner, f, hframes⟩
    · rw [tags, hnil]
      rfl
    · rw [tags, hframes, List.concat_eq_append, nested, List.foldl_append, List.map_append,
        List.map_singleton, List.getLast?_concat]
      rfl
  rw [content, topTags_append, hnested]

private theorem root_mapCurrent (b : Builder) (g : List Node → List Node) :
    (b.mapCurrent g).root = if b.tags.isEmpty then g b.root else b.root := by
  obtain ⟨root, frames⟩ := b
  cases frames <;> rfl

private theorem topTags_mapCurrent (b : Builder) {g : List Node → List Node} {more : List String}
    (hg : ∀ content, topTags (g content) = topTags content ++ more) :
    topTags (b.mapCurrent g).content =
      topTags b.content ++ if b.tags.isEmpty then more else [] := by
  rw [topTags_content, topTags_content, tags_mapCurrent, root_mapCurrent]
  cases htags : b.tags with
  | nil => simp [hg]
  | cons tag tags => simp

private theorem topTags_addText (s : String) (content : List Node) :
    topTags (addText s content) = topTags content := by
  unfold addText
  split
  · next t hlast =>
    obtain ⟨front, rfl⟩ := List.getLast?_eq_some_iff.1 hlast
    rw [List.dropLast_concat, topTags_append, topTags_append]
    rfl
  · rw [topTags_append]
    exact List.append_nil _

/-- An event adds the tag that it brings to those at the top exactly if no element is open. -/
theorem topTags_step (b : Builder) (event : Event) :
    topTags (b.step event).content =
      topTags b.content ++ if b.tags.isEmpty then event.opened?.toList else [] := by
  have happend : ∀ n : Node, topTags (b.mapCurrent (· ++ [n])).content =
      topTags b.content ++ if b.tags.isEmpty then n.tag?.toList else [] := by
    intro n
    apply topTags_mapCurrent
    intro content
    rw [topTags_append]
    cases n <;> rfl
  cases event with
  | start tag attrs =>
      rw [step]
      split
      · exact happend _
      · rw [topTags_content, topTags_content]
        change topTags b.root ++ (tag :: b.tags).getLast?.toList = _
        cases b.tags <;> simp [Event.opened?]
  | startEnd tag attrs => exact happend _
  | close tag =>
      rw [step, content_closeTag]
      simp [Event.opened?]
  | data s =>
      rw [step]
      split
      · simp [Event.opened?]
      · apply topTags_mapCurrent
        intro content
        rw [topTags_addText]
        exact (List.append_nil _).symm
  | comment s => exact happend _

private theorem topTags_foldl_step (events : List Event) (b : Builder) :
    topTags (events.foldl step b).content = topTags b.content ++ openedAtTop b.tags events := by
  induction events generalizing b with
  | nil => exact (List.append_nil _).symm
  | cons event events ih =>
      rw [List.foldl_cons, ih, topTags_step, tags_step, openedAtTop, List.append_assoc]

/-- The tags at the top of a tree are those that its events open there. -/
theorem topTags_build (events : List Event) :
    topTags (build events).content = openedAtTop [] events :=
  topTags_foldl_step events empty

end Builder

namespace Document

/-! ## `html` elements -/

private theorem countP_mapHtml (f : List Node → List Node) (nodes : List Node) :
    (mapHtml f nodes).countP (Node.isElement "html") =
      nodes.countP (Node.isElement "html") := by
  fun_induction mapHtml f nodes with
  | case1 => rfl
  | case2 attrs content nodes => rfl
  | case3 tag attrs content nodes htag ih => rw [List.countP_cons, List.countP_cons, ih]
  | case4 n nodes _ ih => rw [List.countP_cons, List.countP_cons, ih]

/-- Only a document without an `html` element gets one. -/
theorem countP_ensureHtml (nodes : List Node) :
    (ensureHtml nodes).countP (Node.isElement "html") =
      max 1 (nodes.countP (Node.isElement "html")) := by
  unfold ensureHtml
  split
  · next hany =>
    have hpos : 0 < nodes.countP (Node.isElement "html") := by
      rw [List.countP_pos_iff]
      simpa using hany
    omega
  · next hnone =>
    have hzero : nodes.countP (Node.isElement "html") = 0 := by
      rw [List.countP_eq_zero]
      simpa using hnone
    have hcomments : (nodes.filter Node.isComment).countP (Node.isElement "html") = 0 := by
      have hle := (List.filter_sublist (p := Node.isComment) (l := nodes)).countP_le
        (p := Node.isElement "html")
      omega
    rw [List.countP_append, hcomments, hzero]
    rfl

/-- A document has as many `html` elements at its top as its events open there, but at least one,
and the first of them has a `body`. So it is the only one exactly if the events do not open two. -/
theorem html_ensure_build (events : List Event) :
    (ensure (Builder.build events).content).countP (Node.isElement "html") =
        max 1 ((Builder.openedAtTop [] events).count "html") ∧
      ((ensure (Builder.build events).content).countP (Node.isElement "html") = 1 ↔
        (Builder.openedAtTop [] events).count "html" ≤ 1) ∧
      ∃ before attrs content after,
        ensure (Builder.build events).content = before ++ .element "html" attrs content :: after ∧
        (∀ n ∈ before, n.isElement "html" = false) ∧
        content.any (Node.isElement "body") = true := by
  have hcount : (ensure (Builder.build events).content).countP (Node.isElement "html") =
      max 1 ((Builder.openedAtTop [] events).count "html") := by
    rw [ensure, countP_mapHtml, countP_ensureHtml, Node.countP_isElement, Builder.topTags_build]
  refine ⟨hcount, ?_, exists_html_ensure _⟩
  rw [hcount]
  omega

/-- A second `html` element behind the first one stays at the top, and has no `body`. -/
theorem two_html_elements :
    ensure (Builder.build
        [.start "html" [], .close "html", .start "html" [], .close "html"]).content =
      [.element "html" [] [.element "body" [] []], .element "html" [] []] := by
  rfl

end Document

end PageForms
