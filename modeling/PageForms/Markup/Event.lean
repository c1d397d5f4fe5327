/-!
# Markup events

What a text of markup says, piece by piece: tags that open and close elements, character data and
comments.
-/

namespace PageForms

/-- A piece of markup. -/
inductive Event where
  | start (tag : String) (attrs : List (String × Option String))
  /-- A tag that opens an element and closes it again. -/
  | startEnd (tag : String) (attrs : List (String × Option String))
  | close (tag : String)
  | data (text : String)
  | comment (text : String)
deriving DecidableEq, Repr

end PageForms
