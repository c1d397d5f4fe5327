import PageForms.Fault
import PageForms.Text.Join
import PageForms.Text.Named

/-!
# Markup trees

Texts, comments and elements, and their HTML. An element whose children are all texts stays on one
line; otherwise each child has a line of its own, two columns further in. The content of `script`
and `style` is written as it is, and nothing is added inside `pre` and `textarea`.

A `bare` node stands in a tree for nothing in particular and has no HTML.
-/

namespace PageForms

/-- Attributes in order. One without a value is written as its bare name. -/
abbrev Attributes := Named (Option String)

/-- A node of a markup tree. -/
inductive Node where
  | text (s : String)
  | comment (s : String)
  | element (tag : String) (attrs : Attributes) (content : List Node)
  | bare
deriving Repr, Inhabited

namespace Node

/-- To prove something of every node it is enough to prove it of an element whose content has it,
and of what is no element. -/
@[elab_as_elim]
theorem induction_content {p : Node → Prop} (text : ∀ s, p (.text s))
    (comment : ∀ s, p (.comment s)) (bare : p .bare)
    (element : ∀ tag attrs content, (∀ n ∈ content, p n) → p (.element tag attrs content))
    (n : Node) : p n := by
  match n with
  | .text s => exact text s
  | .comment s => exact comment s
  | .bare => exact bare
  | .element tag attrs content =>
      apply element
      intro n hn
      have : sizeOf n < sizeOf content := List.sizeOf_lt_of_mem hn
      exact induction_content text comment bare element n
termination_by sizeOf n

def voidTags : List String :=
  ["area", "base", "basefont", "br", "col", "command", "embed", "frame", "hr", "img", "input",
   "isindex", "keygen", "link", "meta", "param", "source", "track", "wbr"]

def rawTags : List String := ["script", "style"]

def preserveTags : List String := ["pre", "textarea"]

def isVoid (tag : String) : Bool := voidTags.contains tag

def isRaw (tag : String) : Bool := rawTags.contains tag

def isPreserve (tag : String) : Bool := preserveTags.contains tag

def isText : Node → Bool
  | .text _ => true
  | _ => false

def isComment : Node → Bool
  | .comment _ => true
  | _ => false

def isElement (tag : String) : Node → Bool
  | .element t _ _ => t == tag
  | _ => false

def escapeChar (c : Char) : List Char :=
  if c = '&' then "&amp;".toList
  else if c = '<' then "&lt;".toList
  else if c = '>' then "&gt;".toList
  else [c]

def escapeValueChar (c : Char) : List Char :=
  if c = '\x22' then "&quot;".toList
  else if c = '\x27' then "&#x27;".toList
  else escapeChar c

def escapeText (s : String) : String :=
  String.ofList (s.toList.flatMap escapeChar)

def escapeValue (s : String) : String :=
  String.ofList (s.toList.flatMap escapeValueChar)

/-- An attribute with the blank in front of it. -/
def attributeText : String × Option String → String
  | (name, none) => " " ++ name
  | (name, some value) => " " ++ name ++ "=\x22" ++ escapeValue value ++ "\x22"

def openTag (tag : String) (attrs : Attributes) : String :=
  "<" ++ tag ++ Text.concat (attrs.map attributeText) ++ ">"

def closeTag (tag : String) : String :=
  "</" ++ tag ++ ">"

def indentation (depth : Int) : String :=
  Text.spaces (2 * depth)

mutual

def rawText : Node → String
  | .text s => s
  | .element _ _ content => rawTexts content
  | .comment _ | .bare => ""

def rawTexts : List Node → String
  | [] => ""
  | n :: ns => rawText n ++ rawTexts ns

end

mutual

def render (depth : Int) : Node → String
  | .text s => indentation depth ++ escapeText s
  | .comment s => indentation depth ++ "<!--" ++ s ++ "-->"
  | .bare => ""
  | .element tag attrs content =>
    if isVoid tag then indentation depth ++ openTag tag attrs
    else if isRaw tag then
      indentation depth ++ openTag tag attrs ++ rawTexts content ++ closeTag tag
    else if isPreserve tag || content.all isText then
      indentation depth ++ openTag tag attrs ++ renderInline content ++ closeTag tag
    else
      indentation depth ++ openTag tag attrs ++ renderLines (depth + 1) content ++ "\n" ++
        indentation depth ++ closeTag tag

def renderInline : List Node → String
  | [] => ""
  | n :: ns => render 0 n ++ renderInline ns

def renderLines (depth : Int) : List Node → String
  | [] => ""
  | n :: ns => "\n" ++ render depth n ++ renderLines depth ns

end

mutual

/-- Rendering the node meets no bare node. -/
def renderable : Node → Bool
  | .text _ | .comment _ => true
  | .bare => false
  | .element tag _ content => isVoid tag || isRaw tag || allRenderable content

def allRenderable : List Node → Bool
  | [] => true
  | n :: ns => renderable n && allRenderable ns

end

def render? (n : Node) (depth : Int) : Except Fault String :=
  if n.renderable then .ok (n.render depth) else .error .unrenderable

/-- The HTML of a page: a document type, unless it is absent or empty, and the nodes, each ending
its line. -/
def page (doctype : Option String) (nodes : List Node) : String :=
  let first := match doctype with
    | none | some "" => []
    | some name => ["<!DOCTYPE " ++ name ++ ">"]
  Text.joinWith "\n" (first ++ nodes.map (render 0)) ++ "\n"

def page? (doctype : Option String) (nodes : List Node) : Except Fault String :=
  if allRenderable nodes then .ok (page doctype nodes) else .error .unrenderable

end Node

end PageForms
