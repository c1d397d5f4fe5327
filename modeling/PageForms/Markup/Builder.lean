import PageForms.Markup.Event
import PageForms.Markup.Node
import PageForms.Text.Blank

/-!
# Building markup trees

A tree is built from events with the elements that are still open kept apart: `frames` holds them,
the innermost first, and `root` the finished content below them all. A frame's own content is
finished, so the element of each frame is the last child of the next frame's element.

A void element is never open. A closing tag closes every element opened after the one it names,
and is ignored if it names none. Text that is all white space is dropped unless an open element
keeps it, and text behind text joins it.
-/

namespace PageForms

/-- An open element, with the content it has so far. -/
structure Frame where
  tag : String
  attrs : Attributes
  content : List Node
deriving Repr

namespace Frame

def close (f : Frame) (inner : List Node) : Node :=
  .element f.tag f.attrs (f.content ++ inner)

def keepsBlank (f : Frame) : Bool :=
  Node.isPreserve f.tag || Node.isRaw f.tag

end Frame

/-- A tree under construction. -/
structure Builder where
  root : List Node
  frames : List Frame
deriving Repr

namespace Builder

def empty : Builder :=
  { root := [], frames := [] }

def rootTag : String := "#root"

/-- The element that open ones amount to, nested in each other. -/
def nested (frames : List Frame) : List Node :=
  frames.foldl (fun inner f => [f.close inner]) []

def content (b : Builder) : List Node :=
  b.root ++ nested b.frames

def openTags (b : Builder) : List String :=
  rootTag :: (b.frames.map Frame.tag).reverse

def mapCurrent (f : List Node → List Node) (b : Builder) : Builder :=
  match b.frames with
  | [] => { b with root := f b.root }
  | frame :: rest => { b with frames := { frame with content := f frame.content } :: rest }

def addText (s : String) (content : List Node) : List Node :=
  match content.getLast? with
  | some (.text t) => content.dropLast ++ [.text (t ++ s)]
  | _ => content ++ [.text s]

def keepsBlank (b : Builder) : Bool :=
  b.frames.any Frame.keepsBlank

/-- Closes the innermost open element with this tag and all elements inside it. -/
def closeTag (b : Builder) (tag : String) : Builder :=
  match b.frames.dropWhile (·.tag != tag) with
  | [] => b
  | frame :: outer =>
    let inner := b.frames.takeWhile (·.tag != tag)
    mapCurrent (· ++ nested (inner ++ [frame])) { b with frames := outer }

def step (b : Builder) : Event → Builder
  | .start tag attrs =>
    if Node.isVoid tag then b.mapCurrent (· ++ [.element tag (Named.ofList attrs) []])
    else { b with frames := ⟨tag, Named.ofList attrs, []⟩ :: b.frames }
  | .startEnd tag attrs => b.mapCurrent (· ++ [.element tag (Named.ofList attrs) []])
  | .close tag => b.closeTag tag
  | .data s => if Text.allBlank s && !b.keepsBlank then b else b.mapCurrent (addText s)
  | .comment s => b.mapCurrent (· ++ [.comment s])

def build (events : List Event) : Builder :=
  events.foldl step empty

end Builder

end PageForms
