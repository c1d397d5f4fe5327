import PageForms.Markup.Document

/-!
# What holds of every element that is built

The elements of a document get their tags and attributes from the events alone. `Node.Each` says
that something holds of the tag and the attributes of every element of a tree; one step of the
builder keeps it, so it holds of every document whose events have it.
-/

namespace PageForms

namespace Named

variable {α : Type}

private theorem map_fst_insert_of_mem {entries : Named α} {name : String} (value : α)
    (h : name ∈ entries.map Prod.fst) :
    (insert entries name value).map Prod.fst = entries.map Prod.fst := by
  induction entries with
  | nil => cases h
  | cons entry entries ih =>
      rw [insert]
      split
      · rfl
      · next hne =>
        rw [List.map_cons, List.mem_cons] at h
        rw [List.map_cons, List.map_cons, ih (h.resolve_left (Ne.symm hne))]

private theorem nodup_insert {entries : Named α} (h : (entries.map Prod.fst).Nodup) (name : String)
    (value : α) : ((insert entries name value).map Prod.fst).Nodup := by
  by_cases hmem : name ∈ entries.map Prod.fst
  · rw [map_fst_insert_of_mem value hmem]
    exact h
  · rw [insert_of_not_mem value hmem, List.map_append]
    apply List.nodup_append.2
    refine ⟨h, by simp, ?_⟩
    intro a ha b hb
    rw [List.map_singleton, List.mem_singleton] at hb
    rintro rfl
    rw [hb] at ha
    exact hmem ha

/-- No two of the values have one name. -/
theorem nodup_ofList (pairs : List (String × α)) : ((ofList pairs).map Prod.fst).Nodup := by
  have hfold : ∀ acc : Named α, (acc.map Prod.fst).Nodup →
      ((pairs.foldl (fun entries p => insert entries p.1 p.2) acc).map Prod.fst).Nodup := by
    induction pairs with
    | nil => exact fun acc hacc => hacc
    | cons p pairs ih => exact fun acc hacc => ih _ (nodup_insert hacc p.1 p.2)
  exact hfold [] List.nodup_nil

end Named

/-- The node has no bare node in it, and every element of it has a tag and attributes that satisfy
`p`. -/
inductive Node.Each (p : String → Attributes → Prop) : Node → Prop
  | text (s) : Each p (.text s)
  | comment (s) : Each p (.comment s)
  | element {tag attrs content} (htag : p tag attrs) (hcontent : ∀ n ∈ content, Each p n) :
      Each p (.element tag attrs content)

variable {p : String → Attributes → Prop}

theorem Node.Each.of_element {tag : String} {attrs : Attributes} {content : List Node}
    (h : Node.Each p (.element tag attrs content)) :
    p tag attrs ∧ ∀ n ∈ content, Node.Each p n := by
  cases h with
  | element htag hcontent => exact ⟨htag, hcontent⟩

namespace Builder

/-- The elements of the tree under construction, finished and open, satisfy `p`. -/
structure Sound (p : String → Attributes → Prop) (b : Builder) : Prop where
  root : ∀ n ∈ b.root, Node.Each p n
  frames : ∀ f ∈ b.frames, p f.tag f.attrs ∧ ∀ n ∈ f.content, Node.Each p n

private theorem each_nested {frames : List Frame}
    (h : ∀ f ∈ frames, p f.tag f.attrs ∧ ∀ n ∈ f.content, Node.Each p n) :
    ∀ n ∈ nested frames, Node.Each p n := by
  have hfold : ∀ inner : List Node, (∀ n ∈ inner, Node.Each p n) →
      ∀ n ∈ frames.foldl (fun inner f => [f.close inner]) inner, Node.Each p n := by
    induction frames with
    | nil => exact fun inner hinner => hinner
    | cons f frames ih =>
        intro inner hinner
        apply ih fun g hg => h g (by simp [hg])
        intro n hn
        rw [List.mem_singleton.1 hn]
        refine .element (h f (by simp)).1 ?_
        intro m hm
        rcases List.mem_append.1 hm with hm | hm
        · exact (h f (by simp)).2 m hm
        · exact hinner m hm
  exact hfold [] (by simp)

theorem Sound.mapCurrent {b : Builder} {f : List Node → List Node} (h : b.Sound p)
    (hf : ∀ content, (∀ n ∈ content, Node.Each p n) → ∀ n ∈ f content, Node.Each p n) :
    (b.mapCurrent f).Sound p := by
  obtain ⟨root, frames⟩ := b
  cases frames with
  | nil => exact ⟨hf root h.root, by simp [Builder.mapCurrent]⟩
  | cons frame rest =>
      refine ⟨h.root, ?_⟩
      intro g hg
      rcases List.mem_cons.1 hg with rfl | hg
      · have hframe := h.frames frame (by simp)
        exact ⟨hframe.1, hf _ hframe.2⟩
      · exact h.frames g (by simp [hg])

theorem Sound.append {b : Builder} {nodes : List Node} (h : b.Sound p)
    (hnodes : ∀ n ∈ nodes, Node.Each p n) : (b.mapCurrent (· ++ nodes)).Sound p := by
  apply h.mapCurrent
  intro content hcontent n hn
  rcases List.mem_append.1 hn with hn | hn
  · exact hcontent n hn
  · exact hnodes n hn

private theorem each_addText {content : List Node} (s : String) (h : ∀ n ∈ content, Node.Each p n) :
    ∀ n ∈ addText s content, Node.Each p n := by
  unfold addText
  split
  · intro n hn
    rcases List.mem_append.1 hn with hn | hn
    · exact h n ((List.dropLast_sublist _).mem hn)
    · rw [List.mem_singleton.1 hn]
      exact .text _
  · intro n hn
    rcases List.mem_append.1 hn with hn | hn
    · exact h n hn
    · rw [List.mem_singleton.1 hn]
      exact .text _

theorem Sound.closeTag {b : Builder} (h : b.Sound p) (tag : String) : (b.closeTag tag).Sound p := by
  unfold Builder.closeTag
  split
  · exact h
  · next frame outer hdrop =>
    have hmem : ∀ f ∈ frame :: outer, f ∈ b.frames := by
      intro f hf
      rw [← hdrop] at hf
      exact (List.dropWhile_sublist _).mem hf
    have houter : Sound p { b with frames := outer } :=
      ⟨h.root, fun f hf => h.frames f (hmem f (by simp [hf]))⟩
    apply houter.append
    apply each_nested
    intro f hf
    rcases List.mem_append.1 hf with hf | hf
    · exact h.frames f ((List.takeWhile_sublist _).mem hf)
    · rw [List.mem_singleton.1 hf]
      exact h.frames frame (hmem frame (by simp))

theorem Sound.step {b : Builder} (hp : ∀ tag attrs, p tag (Named.ofList attrs)) (h : b.Sound p)
    (event : Event) : (b.step event).Sound p := by
  have hempty : ∀ tag attrs, ∀ n ∈ [Node.element tag (Named.ofList attrs) []], Node.Each p n := by
    intro tag attrs n hn
    rw [List.mem_singleton.1 hn]
    exact .element (hp tag attrs) (by simp)
  cases event with
  | start tag attrs =>
      rw [Builder.step]
      split
      · exact h.append (hempty tag attrs)
      · refine ⟨h.root, ?_⟩
        intro f hf
        rcases List.mem_cons.1 hf with rfl | hf
        · exact ⟨hp tag attrs, by simp⟩
        · exact h.frames f hf
  | startEnd tag attrs => exact h.append (hempty tag attrs)
  | close tag => exact h.closeTag tag
  | data s =>
      rw [Builder.step]
      split
      · exact h
      · exact h.mapCurrent fun content hcontent => each_addText s hcontent
  | comment s =>
      apply h.append
      intro n hn
      rw [List.mem_singleton.1 hn]
      exact .comment s

/-- What holds of the tags and attributes of all events holds of all elements that are built. -/
theorem each_content_build (hp : ∀ tag attrs, p tag (Named.ofList attrs)) (events : List Event) :
    ∀ n ∈ (build events).content, Node.Each p n := by
  have hrun : ∀ b : Builder, b.Sound p → (events.foldl Builder.step b).Sound p := by
    induction events with
    | nil => exact fun b hb => hb
    | cons event events ih => exact fun b hb => ih _ (hb.step hp event)
  have hbuilt : (build events).Sound p := hrun empty ⟨by simp [empty], by simp [empty]⟩
  intro n hn
  rcases List.mem_append.1 hn with hn | hn
  · exact hbuilt.root n hn
  · exact each_nested hbuilt.frames n hn

end Builder

end PageForms
