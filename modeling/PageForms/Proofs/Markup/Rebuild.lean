import PageForms.Proofs.Markup.Tidy

/-!
# Telling a tree again

`replay` tells of a tree in document order: an opening tag, the content and a closing tag for an
element, only the opening tag for a void one. A tidy tree is built again from what is told of it,
also if white space comes in between where no open element keeps it, or closing tags that no open
element has: such events change nothing wherever they come.
-/

namespace PageForms

namespace Node

open Builder

mutual

/-- The events that tell of a node. -/
def replay : Node → List Event
  | .text s => [.data s]
  | .comment s => [.comment s]
  | .bare => []
  | .element tag attrs content =>
    if isVoid tag then [.start tag attrs]
    else .start tag attrs :: (replayAll content ++ [.close tag])

def replayAll : List Node → List Event
  | [] => []
  | n :: ns => replay n ++ replayAll ns

end

/-- Texts that stand apart are not joined when they are added. -/
theorem addNodes_of_textsApart {nodes content : List Node} (h : TextsApart (content ++ nodes)) :
    addNodes nodes content = content ++ nodes := by
  induction nodes generalizing content with
  | nil => exact (List.append_nil content).symm
  | cons n nodes ih =>
      have hn : addNode content n = content ++ [n] := by
        cases n with
        | text s =>
            obtain ⟨-, -, hlink⟩ := List.isChain_append.1 h
            rw [addNode, addText]
            split
            · next t hlast => exact absurd ⟨rfl, rfl⟩ (hlink _ hlast _ rfl)
            · rfl
        | _ => rfl
      rw [List.append_cons] at h ⊢
      rw [addNodes, List.foldl_cons, hn]
      exact ih h

private theorem tells_replayAll {tags : List String} {ns : List Node}
    (h : ∀ n ∈ ns, Tells tags [n] n.replay) : Tells tags ns (replayAll ns) := by
  induction ns with
  | nil => exact .nil
  | cons n ns ih => exact (h n (by simp)).append (ih fun m hm => h m (by simp [hm]))

private theorem tells_replay (n : Node) {tags : List String} (h : n.Tidy (tags.any tagKeepsBlank)) :
    Tells tags [n] n.replay := by
  induction n using induction_content generalizing tags with
  | text s =>
      refine .text ?_ .nil
      rw [tidy_text_iff] at h
      cases hs : Text.allBlank s with
      | false => exact .inl rfl
      | true => exact .inr (h hs)
  | comment s => exact .comment .nil
  | bare => exact absurd h (not_tidy_bare _)
  | element tag attrs content ih =>
      obtain ⟨hvoid, htexts, hattrs, hcontent⟩ := tidy_element_iff.1 h
      rw [replay]
      have hnames : Named.ofList attrs = attrs := Named.ofList_of_nodup hattrs
      cases htag : isVoid tag with
      | true =>
          have htold : Tells tags [.element tag (Named.ofList attrs) []] [.start tag attrs] :=
            .void htag .nil
          rw [hnames] at htold
          rw [hvoid htag]
          exact htold
      | false =>
          have hinner : Tells (tag :: tags) content (replayAll content) := by
            apply tells_replayAll
            intro m hm
            apply ih m hm
            rw [List.any_cons, Bool.or_comm]
            exact hcontent m hm
          have htold : Tells tags [.element tag (Named.ofList attrs) content]
              (.start tag attrs :: (replayAll content ++ [.close tag])) :=
            .element htag (addNodes_of_textsApart htexts) hinner .nil
          rwa [hnames] at htold

end Node

namespace Builder

/-! ## Events that change nothing -/

/-- The second list is the first with events put in that change nothing, if elements with these tags
are open, the innermost first: white space where none of them keeps it, and closing tags that none
of them has. -/
inductive WithNoise : List String → List Event → List Event → Prop
  | nil {tags} : WithNoise tags [] []
  | event {tags events noisy} (event) (h : WithNoise (openAfter tags event) events noisy) :
      WithNoise tags (event :: events) (event :: noisy)
  | blank {tags events noisy} (s) (hs : Text.allBlank s = true)
      (htags : tags.any tagKeepsBlank = false) (h : WithNoise tags events noisy) :
      WithNoise tags events (.data s :: noisy)
  | stray {tags events noisy} (tag) (htag : tag ∉ tags) (h : WithNoise tags events noisy) :
      WithNoise tags events (.close tag :: noisy)

theorem WithNoise.foldl_step {tags : List String} {events noisy : List Event}
    (h : WithNoise tags events noisy) {b : Builder} (hb : b.tags = tags) :
    noisy.foldl step b = events.foldl step b := by
  induction h generalizing b with
  | nil => rfl
  | event e _ ih => exact ih (by rw [tags_step, hb])
  | blank s hs htags _ ih =>
      have hstep : b.step (.data s) = b := by
        rw [step, keepsBlank_eq, hb, hs, htags]
        rfl
      rw [List.foldl_cons, hstep, ih hb]
  | stray tag htag _ ih =>
      rw [← hb] at htag
      rw [List.foldl_cons, step, closeTag_of_not_mem htag, ih hb]

/-! ## Building a tree again -/

private theorem build_replayAll_eq {content : List Node}
    (h : (Node.element rootTag [] content).Tidy false) :
    build (Node.replayAll content) = ⟨content, []⟩ := by
  obtain ⟨-, htexts, -, hcontent⟩ := Node.tidy_element_iff.1 h
  have htells : Tells [] content (Node.replayAll content) :=
    Node.tells_replayAll fun n hn => n.tells_replay (hcontent n hn)
  rw [build, htells.foldl_step rfl]
  exact congrArg (Builder.mk · []) (Node.addNodes_of_textsApart htexts)

/-- The tidy trees are those that events can build. -/
theorem tidy_iff_exists_build {content : List Node} :
    (Node.element rootTag [] content).Tidy false ↔
      ∃ events, (build events).content = content := by
  constructor
  · intro h
    refine ⟨Node.replayAll content, ?_⟩
    rw [build_replayAll_eq h]
    exact List.append_nil content
  · rintro ⟨events, rfl⟩
    exact tidy_tree events

/-- What is told of a tidy tree builds that tree and leaves nothing open but the root, and events
that change nothing may come in between. -/
theorem build_replayAll {content : List Node}
    (h : (Node.element rootTag [] content).Tidy false) :
    (build (Node.replayAll content)).openTags = [rootTag] ∧
    (build (Node.replayAll content)).content = content ∧
    ∀ noisy, WithNoise [] (Node.replayAll content) noisy →
      build noisy = build (Node.replayAll content) := by
  refine ⟨?_, ?_, ?_⟩
  · rw [build_replayAll_eq h]
    rfl
  · rw [build_replayAll_eq h]
    exact List.append_nil content
  · intro noisy hnoisy
    exact hnoisy.foldl_step rfl

theorem build_replayAll_noisy :
    ∃ content noisy,
      content = [.comment "c", .element "div" [("id", some "a"), ("hidden", none)]
        [.text "x", .element "br" [] [], .element "pre" [] [.text " ", .element "b" [] []]]] ∧
      noisy = [.data "\n", .comment "c", .close "#root",
        .start "div" [("id", some "a"), ("hidden", none)], .data "x", .start "br" [],
        .close "br", .data " ", .start "pre" [], .data " ", .close "p", .start "b" [],
        .close "b", .close "pre", .close "pre", .data "", .close "div", .close "div"] ∧
      (Node.element rootTag [] content).Tidy false ∧
      WithNoise [] (Node.replayAll content) noisy ∧
      (build noisy).openTags = [rootTag] ∧ (build noisy).content = content := by
  obtain ⟨content, hcontent⟩ : ∃ content : List Node, content =
    [.comment "c", .element "div" [("id", some "a"), ("hidden", none)]
      [.text "x", .element "br" [] [], .element "pre" [] [.text " ", .element "b" [] []]]] :=
    ⟨_, rfl⟩
  have htidy : (Node.element rootTag [] content).Tidy false := by
    rw [hcontent]
    decide
  have hnoisy : WithNoise [] (Node.replayAll content)
      [.data "\n", .comment "c", .close "#root",
        .start "div" [("id", some "a"), ("hidden", none)], .data "x", .start "br" [],
        .close "br", .data " ", .start "pre" [], .data " ", .close "p", .start "b" [],
        .close "b", .close "pre", .close "pre", .data "", .close "div", .close "div"] := by
    rw [hcontent]
    refine .blank "\n" (by decide) (by decide) <| .event _ <| .stray "#root" (by decide) <|
      .event _ <| .event _ <| .event _ <| .stray "br" (by decide) <|
      .blank " " (by decide) (by decide) <| .event _ <| .event _ <| .stray "p" (by decide) <|
      .event _ <| .event _ <| .event _ <| .stray "pre" (by decide) <|
      .blank "" (by decide) (by decide) <| .event _ <| .stray "div" (by decide) .nil
  obtain ⟨hopen, hbuilt, hsame⟩ := build_replayAll htidy
  refine ⟨content, _, hcontent, rfl, htidy, hnoisy, ?_, ?_⟩
  · rw [hsame _ hnoisy, hopen]
  · rw [hsame _ hnoisy, hbuilt]

end Builder

end PageForms
