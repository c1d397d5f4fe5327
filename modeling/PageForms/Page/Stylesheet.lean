import PageForms.Datum.Display
import PageForms.Datum.Replace
import PageForms.Page.Tag
import PageForms.Text.Named

/-!
# Stylesheets

A style form lists selectors and maps of properties. Neighbouring selectors make up a group, and so
do neighbouring maps; each group of selectors has the properties of the group of maps behind it.
A selector is a vector of names, or any other value; a vector of vectors is a list of selectors.
-/

namespace PageForms.Stylesheet

def runs : List Datum → List (List Datum)
  | [] => []
  | x :: xs =>
    match runs xs with
    | (y :: ys) :: rest =>
      if x.isMap == y.isMap then (x :: y :: ys) :: rest else [x] :: (y :: ys) :: rest
    | rest => [x] :: rest

def isProperties (run : List Datum) : Bool :=
  run.head?.any Datum.isMap

def paths (selector : Datum) : List Datum :=
  match selector with
  | .seq .vector (x :: xs) => if (x :: xs).all Datum.isVector then x :: xs else [selector]
  | _ => [selector]

def pathText (path : Datum) : Except Fault String := do
  let names := match path with
    | .seq .vector xs => xs
    | v => [v]
  return Text.joinWith " " (← names.mapM Datum.label?)

def selectorText (run : List Datum) : Except Fault String := do
  return Text.joinWith ",\n" (← (run.flatMap paths).mapM pathText)

def propertiesIn (run : List Datum) : List (Datum × Datum) :=
  run.flatMap fun
    | .map es => es
    | _ => []

/-- The text of a run of maps. Of properties with one name the last value counts, in the first
place. -/
def propertyText (run : List Datum) : Except Fault String := do
  let pairs ← (propertiesIn run).mapM fun (k, v) => do return (← k.label?, ← v.label?)
  let lines := (Named.ofList pairs).map fun (name, value) => "  " ++ name ++ ": " ++ value ++ ";\n"
  return " \x7b\n" ++ Text.concat lines ++ "\x7d\n"

def ruleText (selectors properties : List Datum) : Except Fault String := do
  return (← selectorText selectors) ++ (← propertyText properties)

/-- The runs of selectors, each with the run of maps that belongs to it. Maps before the first
selector belong to none. -/
def rules (items : List Datum) : List (List Datum × List Datum) :=
  let all := runs items
  let properties := all.filter isProperties
  let startsWithMap := all.head?.any isProperties
  (all.filter fun run => !isProperties run).zip
    (if startsWithMap then properties.tail else properties)

def text (items : List Datum) : Except Fault String := do
  return Text.joinWith "\n" (← (rules items).mapM fun rule => ruleText rule.1 rule.2)

/-- The items of a style form; one vector around all of them is taken off. -/
def bodyOf (items : List Datum) : List Datum :=
  match items with
  | [.seq .vector xs] => if xs.any Datum.isMap then xs else items
  | _ => items

/-- Compiles a style form whose body starts with a selector vector, and leaves others as they
are. -/
def compileForm (v : Datum) : Except Fault Datum := do
  let body := bodyOf (← (← v.dropItems 1).items)
  match body with
  | .seq .vector _ :: _ =>
    return .call "style" [.map [(.keyword "type", .str "text/css")], .str (← text body)]
  | _ => return v

def compileAll (root : Datum) : Except Fault Datum :=
  root.replaceWhere (fun v => v.role == .style) compileForm

end PageForms.Stylesheet
