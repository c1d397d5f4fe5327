import PageForms.Markup.Builder

/-!
# Trees told by events

`Tells` relates nodes to the events that tell of them where some elements are open: an opening tag,
what tells of the content and a closing tag for an element, and in between, where no open element
keeps it, any white space. Taking such events adds the nodes to the tree and leaves the open
elements as they are.
-/

namespace PageForms.Builder

def addNode (content : List Node) : Node → List Node
  | .text s => addText s content
  | n => content ++ [n]

def addNodes (nodes content : List Node) : List Node :=
  nodes.foldl addNode content

def tagKeepsBlank (tag : String) : Bool :=
  Node.isPreserve tag || Node.isRaw tag

/-- The events tell of the nodes inside open elements with these tags, the innermost first. -/
inductive Tells : List String → List Node → List Event → Prop
  | nil {tags} : Tells tags [] []
  | blank {tags nodes events s} (hs : Text.allBlank s = true)
      (htags : tags.any tagKeepsBlank = false) (hrest : Tells tags nodes events) :
      Tells tags nodes (.data s :: events)
  | text {tags nodes events s} (hs : Text.allBlank s = false ∨ tags.any tagKeepsBlank = true)
      (hrest : Tells tags nodes events) : Tells tags (.text s :: nodes) (.data s :: events)
  | comment {tags nodes events s} (hrest : Tells tags nodes events) :
      Tells tags (.comment s :: nodes) (.comment s :: events)
  | void {tags nodes events tag attrs} (htag : Node.isVoid tag = true)
      (hrest : Tells tags nodes events) :
      Tells tags (.element tag (Named.ofList attrs) [] :: nodes) (.start tag attrs :: events)
  | element {tags nodes events tag attrs content inner} (htag : Node.isVoid tag = false)
      (hcontent : addNodes content [] = content) (hinner : Tells (tag :: tags) content inner)
      (hrest : Tells tags nodes events) :
      Tells tags (.element tag (Named.ofList attrs) content :: nodes)
        (.start tag attrs :: (inner ++ .close tag :: events))

theorem Tells.append {tags : List String} {nodes more : List Node} {events others : List Event}
    (h : Tells tags nodes events) (hmore : Tells tags more others) :
    Tells tags (nodes ++ more) (events ++ others) := by
  induction h with
  | nil => exact hmore
  | blank hs htags _ ih => exact .blank hs htags (ih hmore)
  | text hs _ ih => exact .text hs (ih hmore)
  | comment _ ih => exact .comment (ih hmore)
  | void htag _ ih => exact .void htag (ih hmore)
  | element htag hcontent hinner _ _ ih =>
      rw [List.cons_append, List.cons_append, List.append_assoc, List.cons_append]
      exact .element htag hcontent hinner (ih hmore)

/-! ## Taking the events -/

def tags (b : Builder) : List String :=
  b.frames.map Frame.tag

theorem keepsBlank_eq (b : Builder) : b.keepsBlank = b.tags.any tagKeepsBlank := by
  rw [keepsBlank, tags, List.any_map]
  rfl

theorem tags_mapCurrent (b : Builder) (f : List Node → List Node) :
    (b.mapCurrent f).tags = b.tags := by
  obtain ⟨root, frames⟩ := b
  cases frames <;> rfl

private theorem mapCurrent_mapCurrent (b : Builder) (f g : List Node → List Node) :
    (b.mapCurrent f).mapCurrent g = b.mapCurrent (g ∘ f) := by
  obtain ⟨root, frames⟩ := b
  cases frames <;> rfl

private theorem mapCurrent_addNodes_nil (b : Builder) : b.mapCurrent (addNodes []) = b := by
  obtain ⟨root, frames⟩ := b
  cases frames <;> rfl

/-- Closing the innermost element adds it to the content around it. -/
theorem closeTag_innermost (b : Builder) (frame : Frame) :
    closeTag { b with frames := frame :: b.frames } frame.tag =
      b.mapCurrent (· ++ [frame.close []]) := by
  have hdrop : (frame :: b.frames).dropWhile (·.tag != frame.tag) = frame :: b.frames :=
    List.dropWhile_cons_of_neg (by simp)
  have htake : (frame :: b.frames).takeWhile (·.tag != frame.tag) = [] :=
    List.takeWhile_cons_of_neg (by simp)
  unfold closeTag
  rw [hdrop, htake]
  rfl

/-- What events tell of is added to the tree, and the open elements stay open. -/
theorem Tells.foldl_step {ts : List String} {nodes : List Node} {events : List Event}
    (h : Tells ts nodes events) {b : Builder} (hb : b.tags = ts) :
    events.foldl step b = b.mapCurrent (addNodes nodes) := by
  induction h generalizing b with
  | nil => exact (mapCurrent_addNodes_nil b).symm
  | @blank _ nodes events s hs htags _ ih =>
      have hstep : b.step (.data s) = b := by
        rw [step, keepsBlank_eq, hb, hs, htags]
        rfl
      rw [List.foldl_cons, hstep, ih hb]
  | @text _ nodes events s hs _ ih =>
      have hstep : b.step (.data s) = b.mapCurrent (addText s) := by
        rw [step, keepsBlank_eq, hb]
        rcases hs with hs | hs
        · rw [hs]
          rfl
        · rw [hs, Bool.not_true, Bool.and_false]
          rfl
      rw [List.foldl_cons, hstep, ih ((tags_mapCurrent b _).trans hb), mapCurrent_mapCurrent]
      rfl
  | @comment _ nodes events s _ ih =>
      rw [List.foldl_cons, step, ih ((tags_mapCurrent b _).trans hb), mapCurrent_mapCurrent]
      rfl
  | @void _ nodes events tag attrs htag _ ih =>
      rw [List.foldl_cons, step, if_pos htag, ih ((tags_mapCurrent b _).trans hb),
        mapCurrent_mapCurrent]
      rfl
  | @element _ nodes events tag attrs content inner htag hcontent _ _ ihinner ih =>
      have hopened : Builder.tags { b with frames := ⟨tag, Named.ofList attrs, []⟩ :: b.frames } =
          tag :: b.tags := rfl
      rw [List.foldl_cons, step, if_neg (by simp [htag]), List.foldl_append, List.foldl_cons,
        ihinner (hopened.trans (by rw [hb]))]
      have hfilled : mapCurrent (addNodes content)
          { b with frames := ⟨tag, Named.ofList attrs, []⟩ :: b.frames } =
            { b with frames := ⟨tag, Named.ofList attrs, content⟩ :: b.frames } := by
        simp only [mapCurrent, hcontent]
      have hclosed := closeTag_innermost b ⟨tag, Named.ofList attrs, content⟩
      rw [hfilled, step, hclosed, ih ((tags_mapCurrent b _).trans hb), mapCurrent_mapCurrent]
      simp only [Frame.close, List.append_nil]
      rfl

/-- Nodes that events tell of, with no text behind a text, are what the events build. -/
theorem Tells.content_build {nodes : List Node} {events : List Event} (h : Tells [] nodes events)
    (hnodes : addNodes nodes [] = nodes) : (build events).content = nodes := by
  rw [build, h.foldl_step rfl]
  change addNodes nodes [] ++ [] = nodes
  rw [hnodes, List.append_nil]

end PageForms.Builder
