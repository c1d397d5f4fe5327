import PageForms.Command.Compile

/-!
# Showing forms

The forms that a file holds, laid out with an empty line between them and not compiled.
-/

namespace PageForms.Listing

def formsOf (kind : SourceKind) (text : String) : Except Fault (List Datum) :=
  match kind with
  | .markup => Page.formsOfMarkup text
  | .namespace => Reader.read text

def kindOf? (ending : String) : Option SourceKind :=
  match ending with
  | ".html" => some .markup
  | ".cljs" => some .namespace
  | _ => none

def layOutAll (forms : List Datum) (width : Int) : Except Fault String := do
  return Text.joinWith "\n\n" (← forms.mapM fun v => v.layOut? width 0)

/-- Shows the forms of a text at a path. Only a text that breaks the notation is reported. -/
def showText (host : Host) (t : FileTree) (path : Path) (width : Int) (text : String) : Step Nat :=
  match kindOf? path.suffix with
  | none => host.say t [.message .error s!"Unsupported file type: {path.text}"] 1
  | some kind =>
    match formsOf kind text with
    | .error e =>
      if e.isNotation then host.say t [Compilation.report path e] 1 else .quiet t (.error e)
    | .ok forms =>
      match layOutAll forms width with
      | .error e => .quiet t (.error e)
      | .ok source => host.say t [.code "clojure" source] 0

def run (host : Host) (t : FileTree) (path : Path) (width : Int) : Step Nat :=
  if t.isFile path then
    match t.readText path with
    | .error e => .quiet t (.error e)
    | .ok text => showText host t path width text
  else host.say t [.message .error s!"Input not found: {path.text}"] 1

end PageForms.Listing
