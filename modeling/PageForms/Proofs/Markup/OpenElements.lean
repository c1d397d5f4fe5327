import PageForms.Proofs.Markup.Replay

/-!
# The open elements

Closing a tag closes innermost elements, one after the other, and leaves the tree as it is. Which
tags are open after an event depends only on those open before it, so they can be told from the
events without building anything: `openAfter`.
-/

namespace PageForms.Builder

/-! ## Closing -/

def closeInnermost (b : Builder) : Builder :=
  match b.frames with
  | [] => b
  | frame :: outer => mapCurrent (· ++ [frame.close []]) { b with frames := outer }

private theorem nested_cons_cons (f g : Frame) (frames : List Frame) :
    nested (f :: g :: frames) =
      nested ({ g with content := g.content ++ [f.close []] } :: frames) := by
  simp only [nested, List.foldl_cons, Frame.close, List.append_nil]

/-- A tag that is not open is ignored; otherwise the innermost element with it is closed together
with those inside it. -/
theorem closeTag_cases (b : Builder) (tag : String) :
    (tag ∉ b.tags ∧ b.closeTag tag = b) ∨
    ∃ inner frame outer, b.frames = inner ++ frame :: outer ∧ frame.tag = tag ∧
      (∀ f ∈ inner, f.tag ≠ tag) ∧
      b.closeTag tag =
        mapCurrent (· ++ nested (inner ++ [frame])) { b with frames := outer } := by
  have hsplit := List.takeWhile_append_dropWhile (p := fun f : Frame => f.tag != tag)
    (l := b.frames)
  cases hdrop : b.frames.dropWhile (·.tag != tag) with
  | nil =>
      left
      rw [hdrop, List.append_nil] at hsplit
      constructor
      · intro hmem
        obtain ⟨f, hf, hftag⟩ := List.mem_map.1 hmem
        rw [← hsplit] at hf
        have hne := List.all_eq_true.1 List.all_takeWhile f hf
        exact absurd hftag (by simpa using hne)
      · unfold closeTag
        rw [hdrop]
  | cons frame outer =>
      right
      rw [hdrop] at hsplit
      refine ⟨_, frame, outer, hsplit.symm, ?_, ?_, ?_⟩
      · have hhead := List.head?_dropWhile_not (fun f : Frame => f.tag != tag) b.frames
        rw [hdrop] at hhead
        simpa using hhead
      · intro f hf
        have hne := List.all_eq_true.1 List.all_takeWhile f hf
        simpa using hne
      · unfold closeTag
        rw [hdrop]

theorem closeTag_of_not_mem {b : Builder} {tag : String} (h : tag ∉ b.tags) :
    b.closeTag tag = b := by
  rcases closeTag_cases b tag with ⟨-, hsame⟩ | ⟨inner, frame, outer, hframes, rfl, -⟩
  · exact hsame
  · rw [tags, hframes] at h
    simp at h

/-- What closing the innermost element keeps, closing all of some elements keeps. -/
theorem closeAll_induction {P : Builder → Prop} (hP : ∀ b, P b → P b.closeInnermost)
    {root : List Node} {outer inner : List Frame} {f : Frame}
    (h : P ⟨root, f :: (inner ++ outer)⟩) :
    P (mapCurrent (· ++ nested (f :: inner)) ⟨root, outer⟩) := by
  induction inner generalizing f with
  | nil => exact hP _ h
  | cons g inner ih =>
      rw [nested_cons_cons]
      exact ih (hP _ h)

theorem closeTag_induction {P : Builder → Prop} (hP : ∀ b, P b → P b.closeInnermost)
    {b : Builder} (h : P b) (tag : String) : P (b.closeTag tag) := by
  rcases closeTag_cases b tag with ⟨-, hsame⟩ | ⟨inner, frame, outer, hframes, -, -, hclosed⟩
  · rwa [hsame]
  · obtain ⟨root, frames⟩ := b
    rw [hclosed]
    subst hframes
    cases inner with
    | nil => exact hP _ h
    | cons f inner =>
        rw [List.cons_append]
        apply closeAll_induction hP
        rwa [List.append_assoc]

private theorem content_closeInnermost (b : Builder) : b.closeInnermost.content = b.content := by
  obtain ⟨root, frames⟩ := b
  rcases frames with _ | ⟨f, _ | ⟨g, frames⟩⟩
  · rfl
  · exact List.append_nil (root ++ [f.close []])
  · rw [content, content, nested_cons_cons]
    rfl

/-- Closing a tag leaves the tree as it is. -/
theorem content_closeTag (b : Builder) (tag : String) : (b.closeTag tag).content = b.content := by
  apply closeTag_induction (P := fun b' => b'.content = b.content) _ rfl
  intro b' hb'
  rw [content_closeInnermost, hb']

/-! ## Open tags -/

/-- The tags that are open after an event, the innermost first, from those open before it. -/
def openAfter (tags : List String) : Event → List String
  | .start tag _ => if Node.isVoid tag then tags else tag :: tags
  | .close tag => if tag ∈ tags then (tags.dropWhile (· != tag)).tail else tags
  | _ => tags

private theorem openAfter_close_append {inner outer : List String} {tag : String}
    (h : ∀ t ∈ inner, t ≠ tag) : openAfter (inner ++ tag :: outer) (.close tag) = outer := by
  have hdrop : (inner ++ tag :: outer).dropWhile (· != tag) = tag :: outer := by
    rw [List.dropWhile_append_of_pos (by simpa using h), List.dropWhile_cons_of_neg (by simp)]
  rw [openAfter, if_pos (by simp), hdrop, List.tail_cons]

theorem tags_step (b : Builder) (event : Event) :
    (b.step event).tags = openAfter b.tags event := by
  cases event with
  | start tag attrs =>
      rw [step, openAfter]
      split
      · exact tags_mapCurrent b _
      · rfl
  | startEnd tag attrs => exact tags_mapCurrent b _
  | close tag =>
      rcases closeTag_cases b tag with ⟨hmem, hsame⟩ |
        ⟨inner, frame, outer, hframes, htag, hinner, hclosed⟩
      · rw [step, hsame, openAfter, if_neg hmem]
      · have htags : b.tags = inner.map Frame.tag ++ tag :: outer.map Frame.tag := by
          rw [tags, hframes, List.map_append, List.map_cons, htag]
        rw [step, hclosed, tags_mapCurrent, htags, openAfter_close_append]
        · rfl
        · intro t ht
          obtain ⟨f, hf, rfl⟩ := List.mem_map.1 ht
          exact hinner f hf
  | data s =>
      rw [step, openAfter]
      split
      · rfl
      · exact tags_mapCurrent b _
      · simp
      · simp
  | comment s => exact tags_mapCurrent b _

/-- The open elements are those that the events leave open. -/
theorem tags_foldl_step (events : List Event) (b : Builder) :
    (events.foldl step b).tags = events.foldl openAfter b.tags := by
  induction events generalizing b with
  | nil => rfl
  | cons event events ih => rw [List.foldl_cons, ih, tags_step, List.foldl_cons]

end PageForms.Builder
