import PageForms.Proofs.Markup.OpenElements

/-!
# Building keeps everything in order

Each event adds what it brings behind everything that is already in the tree, in document order, or
adds nothing. Texts may be joined, so a tree is compared with the events as a list of pieces: its
elements without their content, its comments and the characters of its texts.
-/

namespace PageForms

namespace Node

mutual

/-- The node and all nodes inside it, in document order. -/
def preorder : Node → List Node
  | .element tag attrs content => .element tag attrs content :: preorderAll content
  | n => [n]

def preorderAll : List Node → List Node
  | [] => []
  | n :: ns => preorder n ++ preorderAll ns

end

theorem preorderAll_append (ms ns : List Node) :
    preorderAll (ms ++ ns) = preorderAll ms ++ preorderAll ns := by
  induction ms with
  | nil => rfl
  | cons m ms ih => rw [List.cons_append, preorderAll, ih, preorderAll, List.append_assoc]

end Node

/-- A part of a tree that does not depend on how its texts are divided. -/
inductive Piece where
  | element (tag : String) (attrs : Attributes)
  | comment (s : String)
  | char (c : Char)
deriving DecidableEq, Repr

namespace Piece

def ofText (s : String) : List Piece :=
  s.toList.map char

def isMark : Piece → Bool
  | char _ => false
  | _ => true

def char? : Piece → Option Char
  | char c => some c
  | _ => none

private theorem filter_isMark_ofText (s : String) : (ofText s).filter isMark = [] := by
  simp [ofText, List.filter_map, Function.comp_def, isMark]

private theorem filterMap_char?_ofText (s : String) : (ofText s).filterMap char? = s.toList := by
  simp [ofText, List.filterMap_map, Function.comp_def, char?]

private theorem ofText_append (s t : String) : ofText (s ++ t) = ofText s ++ ofText t := by
  rw [ofText, String.toList_append, List.map_append]
  rfl

end Piece

namespace Node

def mark? : Node → Option Piece
  | .element tag attrs _ => some (.element tag attrs)
  | .comment s => some (.comment s)
  | _ => none

def text? : Node → Option String
  | .text s => some s
  | _ => none

def ownPieces : Node → List Piece
  | .element tag attrs _ => [.element tag attrs]
  | .comment s => [.comment s]
  | .text s => Piece.ofText s
  | .bare => []

def pieces (ns : List Node) : List Piece :=
  (preorderAll ns).flatMap ownPieces

private theorem pieces_append (ms ns : List Node) : pieces (ms ++ ns) = pieces ms ++ pieces ns := by
  rw [pieces, preorderAll_append, List.flatMap_append]
  rfl

private theorem pieces_element (tag : String) (attrs : Attributes) (content : List Node) :
    pieces [.element tag attrs content] = .element tag attrs :: pieces content := by
  rw [pieces, preorderAll, preorder, preorderAll, List.append_nil, List.flatMap_cons]
  rfl

private theorem pieces_text (s : String) : pieces [.text s] = Piece.ofText s :=
  List.append_nil _

private theorem filter_isMark_pieces (ns : List Node) :
    (pieces ns).filter Piece.isMark = (preorderAll ns).filterMap mark? := by
  rw [pieces]
  induction preorderAll ns with
  | nil => rfl
  | cons n ns ih =>
      rw [List.flatMap_cons, List.filter_append, ih]
      cases n with
      | text s =>
          rw [ownPieces, Piece.filter_isMark_ofText]
          rfl
      | _ => rfl

private theorem filterMap_char?_pieces (ns : List Node) :
    (pieces ns).filterMap Piece.char? =
      (Text.concat ((preorderAll ns).filterMap text?)).toList := by
  rw [pieces]
  induction preorderAll ns with
  | nil => rfl
  | cons n ns ih =>
      rw [List.flatMap_cons, List.filterMap_append, ih]
      cases n with
      | text s =>
          rw [ownPieces, Piece.filterMap_char?_ofText, ← String.toList_append]
          rfl
      | _ => rfl

end Node

/-! ## What events bring -/

namespace Event

def mark? : Event → Option Piece
  | .start tag attrs | .startEnd tag attrs => some (.element tag (Named.ofList attrs))
  | .comment s => some (.comment s)
  | _ => none

/-- The text that the event brings; `keep` says that an open element keeps white space. -/
def text? (keep : Bool) : Event → Option String
  | .data s => if !Text.allBlank s || keep then some s else none
  | _ => none

def pieces (keep : Bool) (event : Event) : List Piece :=
  event.mark?.toList ++ ((event.text? keep).map Piece.ofText).getD []

end Event

namespace Builder

open Node (pieces pieces_append pieces_element)

/-- The texts that events bring while elements with these tags are open, the innermost first. -/
def keptTexts (tags : List String) : List Event → List String
  | [] => []
  | event :: events =>
    (event.text? (tags.any tagKeepsBlank)).toList ++ keptTexts (openAfter tags event) events

def keptPieces (tags : List String) : List Event → List Piece
  | [] => []
  | event :: events =>
    event.pieces (tags.any tagKeepsBlank) ++ keptPieces (openAfter tags event) events

private theorem filter_isMark_keptPieces (tags : List String) (events : List Event) :
    (keptPieces tags events).filter Piece.isMark = events.filterMap Event.mark? := by
  induction events generalizing tags with
  | nil => rfl
  | cons event events ih =>
      rw [keptPieces, List.filter_append, ih, Event.pieces, List.filter_append]
      cases event with
      | data s =>
          cases h : (Event.data s).text? (tags.any tagKeepsBlank) with
          | none => rfl
          | some t =>
              rw [Option.map_some, Option.getD_some, Piece.filter_isMark_ofText]
              rfl
      | _ => rfl

private theorem filterMap_char?_keptPieces (tags : List String) (events : List Event) :
    (keptPieces tags events).filterMap Piece.char? =
      (Text.concat (keptTexts tags events)).toList := by
  induction events generalizing tags with
  | nil => rfl
  | cons event events ih =>
      rw [keptPieces, List.filterMap_append, ih, Event.pieces, List.filterMap_append, keptTexts]
      cases event with
      | data s =>
          cases h : (Event.data s).text? (tags.any tagKeepsBlank) with
          | none => rfl
          | some t =>
              rw [Option.map_some, Option.getD_some, Piece.filterMap_char?_ofText,
                Option.toList_some, List.singleton_append, Text.concat, String.toList_append]
              rfl
      | _ => rfl

/-! ## The pieces of a tree under construction -/

def framePieces (f : Frame) : List Piece :=
  .element f.tag f.attrs :: pieces f.content

private theorem pieces_close (inner : List Node) (frames : List Frame) :
    pieces (frames.foldl (fun inner f => [f.close inner]) inner) =
      frames.reverse.flatMap framePieces ++ pieces inner := by
  induction frames generalizing inner with
  | nil => rfl
  | cons f frames ih =>
      rw [List.foldl_cons, ih, Frame.close, pieces_element, pieces_append, List.reverse_cons,
        List.flatMap_append, List.append_assoc]
      simp [framePieces]

/-- The innermost open element ends the tree, so what is added to it comes last. -/
theorem pieces_content (b : Builder) :
    pieces b.content = pieces b.root ++ b.frames.reverse.flatMap framePieces := by
  rw [content, pieces_append, nested, pieces_close]
  exact congrArg _ (List.append_nil _)

private theorem pieces_mapCurrent (b : Builder) {g : List Node → List Node} {more : List Piece}
    (hg : ∀ content, pieces (g content) = pieces content ++ more) :
    pieces (b.mapCurrent g).content = pieces b.content ++ more := by
  obtain ⟨root, frames⟩ := b
  rw [pieces_content, pieces_content]
  cases frames with
  | nil =>
      rw [mapCurrent, hg]
      simp
  | cons f frames =>
      rw [mapCurrent]
      simp [framePieces, hg]

private theorem pieces_append_node (b : Builder) (n : Node) :
    pieces (b.mapCurrent (· ++ [n])).content = pieces b.content ++ pieces [n] :=
  b.pieces_mapCurrent fun content => pieces_append content [n]

private theorem pieces_addText (s : String) (content : List Node) :
    pieces (addText s content) = pieces content ++ Piece.ofText s := by
  unfold addText
  split
  · next t hlast =>
    obtain ⟨front, rfl⟩ := List.getLast?_eq_some_iff.1 hlast
    rw [List.dropLast_concat, pieces_append, pieces_append, Node.pieces_text, Node.pieces_text,
      Piece.ofText_append, List.append_assoc]
  · rw [pieces_append, Node.pieces_text]

/-- An event adds the pieces that it brings at the end. -/
theorem pieces_step (b : Builder) (event : Event) :
    pieces (b.step event).content =
      pieces b.content ++ event.pieces (b.tags.any tagKeepsBlank) := by
  cases event with
  | start tag attrs =>
      rw [step]
      split
      · rw [pieces_append_node]
        rfl
      · rw [pieces_content, pieces_content, List.reverse_cons, List.flatMap_append,
          ← List.append_assoc]
        rfl
  | startEnd tag attrs =>
      rw [step, pieces_append_node]
      rfl
  | close tag =>
      rw [step, content_closeTag]
      exact (List.append_nil _).symm
  | data s =>
      have hkept : (!Text.allBlank s || b.keepsBlank) = !(Text.allBlank s && !b.keepsBlank) := by
        rw [Bool.not_and, Bool.not_not]
      rw [step, Event.pieces, Event.text?, ← keepsBlank_eq, hkept]
      cases Text.allBlank s && !b.keepsBlank with
      | true => exact (List.append_nil _).symm
      | false => exact b.pieces_mapCurrent (pieces_addText s)
  | comment s =>
      rw [step, pieces_append_node]
      rfl

private theorem pieces_foldl_step (events : List Event) (b : Builder) :
    pieces (events.foldl step b).content = pieces b.content ++ keptPieces b.tags events := by
  induction events generalizing b with
  | nil => exact (List.append_nil _).symm
  | cons event events ih =>
      rw [List.foldl_cons, ih, pieces_step, tags_step, keptPieces, List.append_assoc]

/-- In document order the elements and comments of a tree are those of the events that built it, and
its texts put together are those of the events, in order, white space being left out wherever no
open element keeps it. The elements that are open can be told from the events. -/
theorem preorderAll_build (events : List Event) :
    (Node.preorderAll (build events).content).filterMap Node.mark? =
      events.filterMap Event.mark? ∧
    Text.concat ((Node.preorderAll (build events).content).filterMap Node.text?) =
      Text.concat (keptTexts [] events) ∧
    (build events).openTags = rootTag :: (events.foldl openAfter []).reverse := by
  have hpieces : pieces (build events).content = keptPieces [] events :=
    pieces_foldl_step events empty
  refine ⟨?_, ?_, ?_⟩
  · rw [← Node.filter_isMark_pieces, hpieces, filter_isMark_keptPieces]
  · apply String.toList_inj.1
    rw [← Node.filterMap_char?_pieces, hpieces, filterMap_char?_keptPieces]
  · have htags : (build events).tags = events.foldl openAfter [] := tags_foldl_step events empty
    rw [openTags, ← htags]
    rfl

end Builder

end PageForms
