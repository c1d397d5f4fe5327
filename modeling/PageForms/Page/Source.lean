import PageForms.Markup.Document
import PageForms.Page.Compile

/-!
# Page sources

A page is written either as markup with forms in `script` elements, or as a namespace source. The
ending of a file's name tells which.
-/

namespace PageForms

/-- How a page is written. -/
inductive SourceKind where
  | markup
  | namespace
deriving DecidableEq, Repr

namespace SourceKind

/-- The name, or the name without a line feed at its end, has this ending. -/
def endsWith (name ending : String) : Bool :=
  let reversed := name.toList.reverse
  let dropped := match reversed with
    | '\n' :: rest => rest
    | rest => rest
  ending.toList.reverse.isPrefixOf reversed || ending.toList.reverse.isPrefixOf dropped

def ofName? (name : String) : Option SourceKind :=
  if endsWith name ".html" then some .markup
  else if endsWith name ".cljs" then some .namespace
  else none

end SourceKind

namespace Page

def formsOfMarkup (text : String) : Except Fault (List Datum) := do
  Node.listToForms (← Document.parse text)

def documentOf (kind : SourceKind) (text : String) : Except Fault Datum :=
  match kind with
  | .markup => .list <$> formsOfMarkup text
  | .namespace => do liftSource (.list (← Reader.read text))

def planSource (kind : SourceKind) (text : String) : Except Fault Plan := do
  plan (← documentOf kind text)

def compileNodes (nodes : List Node) (options : CompileOptions) : Except Fault Bundle := do
  compile (.list (← Node.listToForms nodes)) options

def compileSource (kind : SourceKind) (text : String) (options : CompileOptions) :
    Except Fault Bundle := do
  (← planSource kind text).render options

end Page

end PageForms
