import PageForms.Datum.Writer
import PageForms.Text.Inspected

/-!
# Showing data as plain text

`Datum.display` is a value as a reader of a page would see it: a string is itself. `Datum.inspect`
tells the kinds of atoms apart. `Datum.label` is the bare name of an atom, as it stands in a
stylesheet or an attribute. The checked forms of these refuse a value with an integer that is too
long to be written.
-/

namespace PageForms

def Shape.kindName : Shape → String
  | .form => "Form"
  | .fn => "AnonFn"
  | .vector => "Vector"
  | .set => "SetForm"
  | .list => "list"
  | .tuple => "tuple"

namespace Datum

mutual

def inspect : Datum → String
  | .nil => "None"
  | .bool b => if b then "True" else "False"
  | .int n => Text.decimalInt n
  | .float x => x.text
  | .str s => Text.inspect s
  | .symbol name => "Symbol(name=" ++ Text.inspect name ++ ")"
  | .keyword name => "Keyword(name=" ++ Text.inspect name ++ ")"
  | .literal text => "Literal(text=" ++ Text.inspect text ++ ")"
  | .seq .list xs => "[" ++ Text.joinWith ", " (inspectItems xs) ++ "]"
  | .seq .tuple [x] => "(" ++ inspect x ++ ",)"
  | .seq .tuple xs => "(" ++ Text.joinWith ", " (inspectItems xs) ++ ")"
  | .seq shape xs => shape.kindName ++ "<" ++ (Datum.seq shape xs).write ++ ">"
  | .map es => "\x7b" ++ Text.joinWith ", " (inspectEntries es) ++ "\x7d"

def inspectItems : List Datum → List String
  | [] => []
  | x :: xs => inspect x :: inspectItems xs

def inspectEntries : List (Datum × Datum) → List String
  | [] => []
  | (k, v) :: es => (inspect k ++ ": " ++ inspect v) :: inspectEntries es

end

def display : Datum → String
  | .str s => s
  | .symbol name => name
  | .keyword name => ":" ++ name
  | .literal text => text
  | v => v.inspect

/-- The bare name of an atom; a collection has its plain text for a name. -/
def label : Datum → String
  | .symbol name => name
  | .keyword name => name
  | .bool b => if b then "true" else "false"
  | v => v.display

def display? (v : Datum) : Except Fault String :=
  v.ifWritable v.display

def inspect? (v : Datum) : Except Fault String :=
  v.ifWritable v.inspect

def label? (v : Datum) : Except Fault String :=
  v.ifWritable v.label

end Datum

end PageForms
