import Mathlib.Data.List.Chain
import PageForms.Proofs.Markup.Builder
import PageForms.Proofs.Markup.OpenElements

/-!
# Trees that are built are tidy

In a tidy tree void elements are empty, no text stands next to another one, and white space alone
is a text only inside an element that keeps it. An element has each attribute once, and bare nodes,
which no event tells of, do not occur. The tree of a builder is tidy after any events. The open
elements lead from its root along last children, and none of them is void.

A builder keeps each open element without what is open inside it. The invariant `StackTidy` speaks
of these frames, and the root is the outermost of them.
-/

namespace PageForms

open Builder (tagKeepsBlank rootTag)

namespace Node

/-! ## Tidy trees -/

/-- The node stands in the tree of a root, inside elements with these tags, the outermost first. -/
inductive Within : List String → Node → Node → Prop
  | self (n) : Within [] n n
  | child {tag attrs content tags m n} (hm : m ∈ content) (hn : Within tags n m) :
      Within (tag :: tags) n (.element tag attrs content)

def TextsApart (content : List Node) : Prop :=
  content.IsChain fun m n => ¬(m.isText = true ∧ n.isText = true)

/-- What is asked of a single node; `keep` says that an element around it keeps white space. -/
def TidyHere (keep : Bool) : Node → Prop
  | .text s => Text.allBlank s = true → keep = true
  | .comment _ => True
  | .bare => False
  | .element tag attrs content =>
    (isVoid tag = true → content = []) ∧ TextsApart content ∧ (attrs.map Prod.fst).Nodup

/-- Every node of the tree is as it should be for the elements around it. -/
def Tidy (keep : Bool) (root : Node) : Prop :=
  ∀ tags n, Within tags n root → n.TidyHere (keep || tags.any tagKeepsBlank)

private theorem tidy_iff_of_leaf {keep : Bool} {n : Node} (h : ∀ tag attrs content,
    n ≠ .element tag attrs content) : Tidy keep n ↔ n.TidyHere keep := by
  constructor
  · intro hn
    simpa using hn [] n (.self n)
  · intro hn tags m hm
    cases hm with
    | self => simpa using hn
    | child => exact absurd rfl (h _ _ _)

theorem tidy_text_iff {keep : Bool} {s : String} :
    Tidy keep (.text s) ↔ (Text.allBlank s = true → keep = true) :=
  tidy_iff_of_leaf (by simp)

private theorem tidy_comment (keep : Bool) (s : String) : Tidy keep (.comment s) :=
  (tidy_iff_of_leaf (by simp)).2 trivial

theorem not_tidy_bare (keep : Bool) : ¬Tidy keep .bare :=
  (tidy_iff_of_leaf (by simp)).1

theorem tidy_element_iff {keep : Bool} {tag : String} {attrs : Attributes} {content : List Node} :
    Tidy keep (.element tag attrs content) ↔
      (isVoid tag = true → content = []) ∧ TextsApart content ∧ (attrs.map Prod.fst).Nodup ∧
        ∀ n ∈ content, Tidy (keep || tagKeepsBlank tag) n := by
  constructor
  · intro h
    obtain ⟨hvoid, htexts, hattrs⟩ := h [] _ (.self _)
    refine ⟨hvoid, htexts, hattrs, ?_⟩
    intro n hn tags m hm
    rw [Bool.or_assoc]
    exact h (tag :: tags) m (.child hn hm)
  · rintro ⟨hvoid, htexts, hattrs, hcontent⟩ tags m hm
    cases hm with
    | self => exact ⟨hvoid, htexts, hattrs⟩
    | child hn hm =>
        rw [List.any_cons, ← Bool.or_assoc]
        exact hcontent _ hn _ m hm

instance (content : List Node) : Decidable (TextsApart content) :=
  inferInstanceAs (Decidable (List.IsChain _ content))

mutual

def decideTidy (keep : Bool) : (n : Node) → Decidable (n.Tidy keep)
  | .text _ => decidable_of_iff _ tidy_text_iff.symm
  | .comment s => .isTrue (tidy_comment keep s)
  | .bare => .isFalse (not_tidy_bare keep)
  | .element tag _ content =>
    have := decideAllTidy (keep || tagKeepsBlank tag) content
    decidable_of_iff _ tidy_element_iff.symm

def decideAllTidy (keep : Bool) : (ns : List Node) → Decidable (∀ n ∈ ns, n.Tidy keep)
  | [] => .isTrue (by simp)
  | n :: ns =>
    have := decideTidy keep n
    have := decideAllTidy keep ns
    decidable_of_iff _ List.forall_mem_cons.symm

end

instance (keep : Bool) (n : Node) : Decidable (n.Tidy keep) := decideTidy keep n

/-! ## Content in which texts stand apart -/

private theorem textsApart_nil : TextsApart [] := .nil

theorem TextsApart.append_singleton {content : List Node} {n : Node} (h : TextsApart content)
    (hn : ∀ m, content.getLast? = some m → ¬(m.isText = true ∧ n.isText = true)) :
    TextsApart (content ++ [n]) := by
  apply List.isChain_append.2
  refine ⟨h, .singleton n, ?_⟩
  intro m hm k hk
  cases hk
  exact hn m hm

private theorem TextsApart.append_element {content : List Node} (h : TextsApart content)
    (tag : String) (attrs : Attributes) (inner : List Node) :
    TextsApart (content ++ [.element tag attrs inner]) := by
  apply h.append_singleton
  rintro m - ⟨-, helement⟩
  cases helement

/-- Text added behind content joins a text that ends it. -/
theorem TextsApart.addText {content : List Node} (h : TextsApart content) (s : String) :
    TextsApart (Builder.addText s content) := by
  unfold Builder.addText
  split
  · next t hlast =>
    -- the joined text has the neighbour that the old one had
    obtain ⟨front, rfl⟩ := List.getLast?_eq_some_iff.1 hlast
    rw [List.dropLast_concat]
    obtain ⟨hfront, -, hlink⟩ := List.isChain_append.1 h
    apply TextsApart.append_singleton hfront
    rintro m hm ⟨hmtext, -⟩
    exact hlink m hm _ rfl ⟨hmtext, rfl⟩
  · next hlast =>
    apply h.append_singleton
    rintro m hm ⟨hmtext, -⟩
    cases m with
    | text t => exact hlast t hm
    | _ => cases hmtext

def kids : Node → List Node
  | .element _ _ content => content
  | _ => []

def tag? : Node → Option String
  | .element tag _ _ => some tag
  | _ => none

end Node

private theorem Text.allBlank_append (s t : String) :
    Text.allBlank (s ++ t) = (Text.allBlank s && Text.allBlank t) := by
  rw [allBlank, String.toList_append, List.all_append]
  rfl

namespace Builder

open Node (Tidy TextsApart tidy_element_iff)

/-! ## The stack of open elements -/

def stack (b : Builder) : List Frame :=
  b.frames ++ [⟨rootTag, [], b.root⟩]

def tree (b : Builder) : Node :=
  .element rootTag [] b.content

/-- The elements that frames amount to, the innermost first, with the content of the innermost one
behind its frame's. -/
def elementsFrom (inner : List Node) : List Frame → List Node
  | [] => []
  | f :: frames => f.close inner :: elementsFrom [f.close inner] frames

def openElements (b : Builder) : List Node :=
  (elementsFrom [] b.stack).reverse

private theorem exists_stack (b : Builder) :
    ∃ f outer, b.stack = f :: outer ∧ ∀ g : List Node → List Node,
      (b.mapCurrent g).stack = { f with content := g f.content } :: outer := by
  obtain ⟨root, frames⟩ := b
  cases frames with
  | nil => exact ⟨_, _, rfl, fun _ => rfl⟩
  | cons frame frames => exact ⟨_, _, rfl, fun _ => rfl⟩

private theorem any_stack (b : Builder) : b.stack.any Frame.keepsBlank = b.keepsBlank := by
  have hroot : Frame.keepsBlank ⟨rootTag, [], b.root⟩ = false := by
    simp only [Frame.keepsBlank]
    decide
  rw [stack, List.any_append, List.any_cons, hroot, keepsBlank]
  simp

private theorem getLast?_elementsFrom (inner : List Node) (f : Frame) (frames : List Frame) :
    (f :: frames).foldl (fun inner f => [f.close inner]) inner =
      (elementsFrom inner (f :: frames)).getLast?.toList := by
  induction frames generalizing inner f with
  | nil => rfl
  | cons g frames ih =>
      rw [List.foldl_cons, ih]
      rfl

private theorem getLast?_elementsFrom_stack (b : Builder) :
    (elementsFrom [] b.stack).getLast? = some b.tree := by
  have hnested : nested b.stack = [b.tree] := by
    rw [nested, stack, List.foldl_append]
    rfl
  obtain ⟨f, outer, hstack, -⟩ := b.exists_stack
  rw [hstack, nested, getLast?_elementsFrom, ← hstack] at hnested
  exact Option.toList_eq_singleton_iff.1 hnested

/-- Each open element is the last child of the one around it. -/
theorem isChain_elementsFrom (inner : List Node) (frames : List Frame) :
    (elementsFrom inner frames).IsChain fun e outer => outer.kids.getLast? = some e := by
  induction frames generalizing inner with
  | nil => exact .nil
  | cons f frames ih =>
      have hrest := ih [f.close inner]
      cases frames with
      | nil => exact .singleton _
      | cons g frames =>
          rw [elementsFrom, elementsFrom] at *
          exact .cons_cons (by simp [Frame.close, Node.kids]) hrest

private theorem map_tag?_elementsFrom (inner : List Node) (frames : List Frame) :
    (elementsFrom inner frames).map Node.tag? = frames.map fun f => some f.tag := by
  induction frames generalizing inner with
  | nil => rfl
  | cons f frames ih =>
      rw [elementsFrom, List.map_cons, ih]
      rfl

/-! ## The invariant -/

/-- What is asked of a frame; `keep` says that an element around it keeps white space. -/
structure FrameTidy (keep : Bool) (f : Frame) : Prop where
  not_void : Node.isVoid f.tag = false
  textsApart : TextsApart f.content
  distinct : (f.attrs.map Prod.fst).Nodup
  content : ∀ n ∈ f.content, n.Tidy (keep || f.keepsBlank)

def StackTidy : List Frame → Prop
  | [] => True
  | f :: outer => FrameTidy (outer.any Frame.keepsBlank) f ∧ StackTidy outer

theorem FrameTidy.close {keep : Bool} {f : Frame} (h : FrameTidy keep f) {inner : List Node}
    (htexts : TextsApart (f.content ++ inner))
    (hinner : ∀ n ∈ inner, n.Tidy (keep || f.keepsBlank)) : (f.close inner).Tidy keep := by
  apply tidy_element_iff.2
  refine ⟨?_, htexts, h.distinct, ?_⟩
  · intro hvoid
    rw [h.not_void] at hvoid
    cases hvoid
  · intro n hn
    rcases List.mem_append.1 hn with hn | hn
    · exact h.content n hn
    · exact hinner n hn

private theorem FrameTidy.close_nil {keep : Bool} {f : Frame} (h : FrameTidy keep f) :
    (f.close []).Tidy keep := by
  apply h.close
  · rw [List.append_nil]
    exact h.textsApart
  · simp

private theorem tidy_of_mem_elementsFrom {frames : List Frame} (h : StackTidy frames)
    {inner : List Node}
    (hinner : inner = [] ∨ ∃ tag attrs content, inner = [.element tag attrs content] ∧
      (Node.element tag attrs content).Tidy (frames.any Frame.keepsBlank)) :
    ∀ n ∈ (elementsFrom inner frames).getLast?, n.Tidy false := by
  induction frames generalizing inner with
  | nil => simp [elementsFrom]
  | cons f frames ih =>
      have hclosed : (f.close inner).Tidy (frames.any Frame.keepsBlank) := by
        rcases hinner with rfl | ⟨tag, attrs, content, rfl, htidy⟩
        · exact h.1.close_nil
        · apply h.1.close (h.1.textsApart.append_element tag attrs content)
          rw [List.any_cons, Bool.or_comm] at htidy
          simpa using htidy
      cases frames with
      | nil => simpa [elementsFrom] using hclosed
      | cons g frames => exact ih h.2 (.inr ⟨_, _, _, rfl, hclosed⟩)

variable {b : Builder}

theorem StackTidy.mapCurrent (h : StackTidy b.stack) {g : List Node → List Node}
    (hg : ∀ content, TextsApart content → (∀ n ∈ content, n.Tidy b.keepsBlank) →
      TextsApart (g content) ∧ ∀ n ∈ g content, n.Tidy b.keepsBlank) :
    StackTidy (b.mapCurrent g).stack := by
  obtain ⟨f, outer, hstack, hmap⟩ := b.exists_stack
  have hkeep : (outer.any Frame.keepsBlank || f.keepsBlank) = b.keepsBlank := by
    rw [← any_stack, hstack, List.any_cons, Bool.or_comm]
  rw [hstack] at h
  rw [hmap]
  obtain ⟨htexts, hcontent⟩ := hg f.content h.1.textsApart (hkeep ▸ h.1.content)
  exact ⟨⟨h.1.not_void, htexts, h.1.distinct, hkeep ▸ hcontent⟩, h.2⟩

/-- A node that is no text can stand behind anything. -/
theorem StackTidy.append (h : StackTidy b.stack) {n : Node} (hn : n.Tidy b.keepsBlank)
    (htext : n.isText = false) : StackTidy (b.mapCurrent (· ++ [n])).stack := by
  apply h.mapCurrent
  intro content htexts hcontent
  constructor
  · apply htexts.append_singleton
    rintro m - ⟨-, hntext⟩
    rw [htext] at hntext
    cases hntext
  · intro m hm
    rcases List.mem_append.1 hm with hm | hm
    · exact hcontent m hm
    · rwa [List.mem_singleton.1 hm]

/-- The text that an added text ends is white space only if the added text is. -/
theorem tidy_addText {keep : Bool} {s : String} (hs : Text.allBlank s = true → keep = true)
    {content : List Node} (h : ∀ n ∈ content, n.Tidy keep) :
    ∀ n ∈ addText s content, n.Tidy keep := by
  intro n hn
  unfold addText at hn
  split at hn
  · next t hlast =>
    rcases List.mem_append.1 hn with hn | hn
    · exact h n ((List.dropLast_sublist _).mem hn)
    · rw [List.mem_singleton.1 hn, Node.tidy_text_iff, Text.allBlank_append, Bool.and_eq_true]
      exact fun hblank => hs hblank.2
  · rcases List.mem_append.1 hn with hn | hn
    · exact h n hn
    · rw [List.mem_singleton.1 hn]
      exact Node.tidy_text_iff.2 hs

theorem StackTidy.closeInnermost (h : StackTidy b.stack) : StackTidy b.closeInnermost.stack := by
  obtain ⟨root, frames⟩ := b
  cases frames with
  | nil => exact h
  | cons f frames =>
      have hclosed : (f.close []).Tidy (keepsBlank ⟨root, frames⟩) := by
        rw [← any_stack]
        exact h.1.close_nil
      have houter : StackTidy (stack ⟨root, frames⟩) := h.2
      exact houter.append hclosed rfl

private theorem tidy_empty (keep : Bool) (tag : String) (attrs : List (String × Option String)) :
    (Node.element tag (Named.ofList attrs) []).Tidy keep :=
  tidy_element_iff.2 ⟨fun _ => rfl, Node.textsApart_nil, Named.nodup_ofList attrs, by simp⟩

/-- Every event keeps the frames tidy. -/
theorem StackTidy.step (h : StackTidy b.stack) (event : Event) :
    StackTidy (b.step event).stack := by
  cases event with
  | start tag attrs =>
      rw [Builder.step]
      split
      · exact h.append (tidy_empty _ tag attrs) rfl
      · next hvoid =>
        exact ⟨⟨by simpa using hvoid, Node.textsApart_nil, Named.nodup_ofList attrs, by simp⟩, h⟩
  | startEnd tag attrs => exact h.append (tidy_empty _ tag attrs) rfl
  | close tag =>
      exact closeTag_induction (P := fun b => StackTidy b.stack) (fun _ => closeInnermost) h tag
  | data s =>
      rw [Builder.step]
      split
      · exact h
      · next hkept =>
        have hs : Text.allBlank s = true → b.keepsBlank = true := by
          simpa using hkept
        exact h.mapCurrent fun content htexts hcontent =>
          ⟨htexts.addText s, tidy_addText hs hcontent⟩
  | comment s => exact h.append (Node.tidy_comment _ s) rfl

private theorem stackTidy_build (events : List Event) : StackTidy (build events).stack := by
  have hrun : ∀ b : Builder, StackTidy b.stack → StackTidy (events.foldl Builder.step b).stack := by
    induction events with
    | nil => exact fun b hb => hb
    | cons event events ih => exact fun b hb => ih _ (hb.step event)
  apply hrun empty
  exact ⟨⟨by decide, Node.textsApart_nil, List.nodup_nil, by simp [empty]⟩, trivial⟩

/-! ## What holds after any events -/

private theorem openTags_eq (b : Builder) : b.openTags = (b.stack.map Frame.tag).reverse := by
  rw [openTags, stack, List.map_append, List.reverse_append]
  rfl

private theorem StackTidy.not_void {frames : List Frame} (h : StackTidy frames) :
    ∀ f ∈ frames, Node.isVoid f.tag = false := by
  induction frames with
  | nil => simp
  | cons f frames ih =>
      intro g hg
      rcases List.mem_cons.1 hg with rfl | hg
      · exact h.1.not_void
      · exact ih h.2 g hg

theorem tidy_tree (events : List Event) : (build events).tree.Tidy false :=
  tidy_of_mem_elementsFrom (stackTidy_build events) (.inl rfl) _
    (build events).getLast?_elementsFrom_stack

/-- After any events the open elements start with the root element, each further one is the last
child of the one before it, none of them is void, and the tree of the root is tidy. -/
theorem tidy_tree_build (events : List Event) :
    (build events).openElements.map Node.tag? = (build events).openTags.map some ∧
    (build events).openElements.head? = some (build events).tree ∧
    ((build events).openElements.IsChain fun outer e => outer.kids.getLast? = some e) ∧
    (∀ tag ∈ (build events).openTags, Node.isVoid tag = false) ∧
    (build events).tree.Tidy false := by
  have htidy := tidy_tree events
  have hstack := stackTidy_build events
  generalize build events = b at htidy hstack
  refine ⟨?_, ?_, ?_, ?_, htidy⟩
  · rw [openElements, openTags_eq, List.map_reverse, map_tag?_elementsFrom, List.map_reverse,
      List.map_map]
    rfl
  · rw [openElements, List.head?_reverse]
    exact b.getLast?_elementsFrom_stack
  · exact List.isChain_reverse.2 (isChain_elementsFrom [] b.stack)
  · intro tag htag
    rw [openTags_eq, List.mem_reverse, List.mem_map] at htag
    obtain ⟨f, hf, rfl⟩ := htag
    exact hstack.not_void f hf

end Builder

end PageForms
