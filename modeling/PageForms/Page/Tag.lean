import PageForms.Datum.Basic
import PageForms.Text.Join
import PageForms.Text.LowerCase

/-!
# Tags and heads

The symbols that are tags of markup, how they are spelled as element names, and the heads that give
a form a role in a page.

Four element names are also names of core functions; as symbols they are written with `html-` in
front. The symbols `$text` and `$comment` stand for plain text and comments.
-/

namespace PageForms

namespace Tag

def names : List String :=
  ["a", "abbr", "acronym", "address", "applet", "area", "article", "aside", "audio", "b", "base",
   "basefont", "bdi", "bdo", "big", "blockquote", "body", "br", "button", "canvas", "caption",
   "center", "cite", "code", "col", "colgroup", "command", "data", "datalist", "dd", "del",
   "details", "dfn", "dir", "div", "dl", "dt", "em", "embed", "eventsource", "fieldset",
   "figcaption", "figure", "font", "footer", "form", "frame", "frameset", "h1", "h2", "h3", "h4",
   "h5", "h6", "head", "header", "hgroup", "hr", "html", "i", "iframe", "img", "input", "ins",
   "isindex", "kbd", "keygen", "label", "legend", "li", "link", "html-map", "mark", "menu",
   "html-meta", "meter", "nav", "noframes", "noscript", "object", "ol", "optgroup", "option",
   "output", "p", "param", "pre", "progress", "q", "rp", "rt", "ruby", "s", "samp", "script",
   "section", "select", "small", "source", "span", "strike", "strong", "style", "sub", "summary",
   "sup", "table", "tbody", "td", "textarea", "tfoot", "th", "thead", "html-time", "title", "tr",
   "track", "tt", "u", "ul", "html-var", "video", "wbr", "$text", "$comment"]

def clashing : List String := ["map", "meta", "time", "var"]

def mark : String := "html-"

/-- The symbol for an element name, which is taken in lower case. -/
def symbolName (tag : String) : String :=
  let tag := Text.lower tag
  if clashing.contains tag then mark ++ tag else tag

def elementName (name : String) : String :=
  match clashing.find? (fun tag => mark ++ tag == name) with
  | some tag => tag
  | none => name

def text : String := "$text"

def comment : String := "$comment"

def isPseudo (name : String) : Bool :=
  name == text || name == comment

end Tag

/-- The part a form plays in a page, told by its head. -/
inductive Role where
  | namespace
  | html
  | body
  | style
  | use
  | other
deriving DecidableEq, Repr

def Role.name : Role → String
  | .namespace => "ns"
  | .html => "html"
  | .body => "body"
  | .style => "style"
  | .use => "use"
  | .other => "other"

namespace Datum

def role (v : Datum) : Role :=
  match v.formItems? with
  | some (.symbol "ns" :: _) => .namespace
  | some (.symbol "html" :: _) => .html
  | some (.symbol "body" :: _) => .body
  | some (.symbol "style" :: _) => .style
  | some (.keyword "use" :: _) => .use
  | _ => .other

def isTag : Datum → Bool
  | .symbol name => Tag.names.contains name
  | _ => false

def elementName? : Datum → Except Fault String
  | .symbol name | .keyword name => .ok (Tag.elementName name)
  | _ => .error .noSuchMember

end Datum

end PageForms
