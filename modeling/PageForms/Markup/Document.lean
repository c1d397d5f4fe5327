import PageForms.Markup.Builder
import PageForms.Markup.Scanner

/-!
# Documents

Every document has an `html` element with a `body` in it. A document without an `html` element gets
one around everything but the comments, which stay before it. An `html` element without a `body`
gets one around its content; the elements that belong in the head and stand before anything else
stay before it.
-/

namespace PageForms.Document

def headTags : List String := ["base", "link", "meta", "style", "title"]

/-- The node belongs in the head; those other than `head` itself do only while the body is
empty. -/
def belongsInHead (bodyStarted : Bool) : Node → Bool
  | .element tag _ _ => tag == "head" || (headTags.contains tag && !bodyStarted)
  | _ => false

def splitHead (bodyStarted : Bool) : List Node → List Node × List Node
  | [] => ([], [])
  | n :: ns =>
    if belongsInHead bodyStarted n then
      let rest := splitHead bodyStarted ns
      (n :: rest.1, rest.2)
    else
      let rest := splitHead true ns
      (rest.1, n :: rest.2)

def ensureBody (content : List Node) : List Node :=
  if content.any (Node.isElement "body") then content
  else
    let parts := splitHead false content
    parts.1 ++ [.element "body" [] parts.2]

/-- The nodes with the content of the first `html` element changed. -/
def mapHtml (f : List Node → List Node) : List Node → List Node
  | [] => []
  | .element tag attrs content :: ns =>
    if tag = "html" then .element tag attrs (f content) :: ns
    else .element tag attrs content :: mapHtml f ns
  | n :: ns => n :: mapHtml f ns

def ensureHtml (nodes : List Node) : List Node :=
  if nodes.any (Node.isElement "html") then nodes
  else
    nodes.filter Node.isComment ++ [.element "html" [] (nodes.filter fun n => !n.isComment)]

def ensure (nodes : List Node) : List Node :=
  mapHtml ensureBody (ensureHtml nodes)

def parse (text : String) : Except Fault (List Node) := do
  return ensure (Builder.build (← Scanner.scan text)).content

end PageForms.Document
