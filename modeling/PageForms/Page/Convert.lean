import PageForms.Datum.Display
import PageForms.Datum.Element
import PageForms.Markup.Node
import PageForms.Page.Tag
import PageForms.Reader.Basic

/-!
# Between markup and forms

An element is the form `(tag {attributes} child*)`, a text a string and a comment the form
`($comment "...")`. The text of a `script` element for forms is read, and the forms take the
element's place.

The other way round, `nil` leaves nothing, and whatever is neither a string nor a form with a symbol
at its head becomes text.
-/

namespace PageForms

def formScriptType : String := "text/hlisp"

/-- An attribute as an entry of a map; one without a value is `true`. -/
def attributeEntry : String × Option String → Datum × Datum
  | (name, some value) => (.keyword name, .str value)
  | (name, none) => (.keyword name, .bool true)

namespace Node

def isFormScript (tag : String) (attrs : Attributes) : Bool :=
  tag == "script" && Named.find? attrs "type" == some (some formScriptType)

mutual

def toForms : Node → Except Fault (List Datum)
  | .text s => .ok [.str s]
  | .comment s => .ok [.call Tag.comment [.str s]]
  | .bare => .error .wrongKind
  | .element tag attrs content =>
    if isFormScript tag attrs then Reader.read (rawTexts content)
    else do
      let kids ← listToForms content
      return [.call (Tag.symbolName tag) (.map (attrs.map attributeEntry) :: kids)]

def listToForms : List Node → Except Fault (List Datum)
  | [] => .ok []
  | n :: ns => do
    let front ← toForms n
    let rest ← listToForms ns
    return front ++ rest

end

end Node

namespace Datum

/-- The value of an attribute. Of a map the entries are written as in a stylesheet. -/
def attributeValue : Datum → Except Fault (Option String)
  | .bool true => .ok none
  | .map es => do
    let rules ← es.mapM fun (k, v) => do return (← k.label?) ++ ": " ++ (← v.label?) ++ ";"
    return some (Text.joinWith " " rules)
  | .seq shape xs => some <$> (Datum.seq shape xs).text?
  | v => some <$> v.label?

def setsAttribute : Datum × Datum → Bool
  | (_, .nil) | (_, .bool false) => false
  | _ => true

/-- The attributes that entries stand for. Those whose value is `nil` or `false` are left out. -/
def attributesOf (es : Entries) : Except Fault Attributes := do
  let pairs ← (es.filter setsAttribute).mapM fun (k, v) => do
    return (← k.label?, ← attributeValue v)
  return Named.ofList pairs

def joinLabels (xs : List Datum) : Except Fault String := do
  return Text.concat (← xs.mapM label?)

/-- The node of a form with a symbol at its head, given what its children come to. -/
def elementMarkup (name : String) (es : Entries) (kids : List Datum)
    (content : Except Fault (List Node)) : Except Fault (List Node) := do
  if name = Tag.text then return [.text (← joinLabels kids)]
  else if name = Tag.comment then return [.comment (← joinLabels kids)]
  else return [.element (Tag.elementName name) (← attributesOf es) (← content)]

mutual

/-- The nodes a value stands for: none for `nil` and otherwise one. -/
def toMarkup : Datum → Except Fault (List Node)
  | .nil => .ok []
  | .str s => .ok [.text s]
  | .seq .form (.symbol name :: .map es :: xs) | .seq .fn (.symbol name :: .map es :: xs) =>
    elementMarkup name es xs (listMarkup xs)
  | .seq .form (.symbol name :: xs) | .seq .fn (.symbol name :: xs) =>
    elementMarkup name [] xs (listMarkup xs)
  | .seq shape xs => do return [.text (← (Datum.seq shape xs).text?)]
  | .map es => do return [.text (← (Datum.map es).text?)]
  | v => do return [.text (← v.label?)]

def listMarkup : List Datum → Except Fault (List Node)
  | [] => .ok []
  | x :: xs => do
    let front ← toMarkup x
    let rest ← listMarkup xs
    return front ++ rest

end

def toPage (forest : Datum) (doctype : Option String) : Except Fault String := do
  Node.page? doctype (← listMarkup (← forest.items))

end Datum

end PageForms
