import PageForms.Datum.Writer

/-!
# Laying data out to a right margin

What fits in the rest of the line is written flat. Otherwise

* a form with a symbol at its head keeps the atoms that follow the head, as far as they fit, on the
  line of the head, and puts every other item on a line of its own, two columns in;
* a vector of atoms is filled line by line;
* any other sequence has one item on each line, below the first one;
* a map has one entry on each line.

Columns count from zero, and the margin and the first column may be any integers.
-/

namespace PageForms.Datum

def extent (s : String) : Int := s.length

def staysOnHeadLine : Datum → Bool
  | .seq .vector [] => true
  | v => !v.isCollection

/-- Puts texts on lines in order, each line as full as the margin allows: `current` is the line
being filled, `inner` its column and `closing` the room kept for what follows. -/
def fillFrom (width inner closing : Int) (current : String) : List String → List String
  | [] => [current]
  | t :: rest =>
    if current.isEmpty then fillFrom width inner closing t rest
    else
      let candidate := current ++ " " ++ t
      if width < inner + extent candidate + closing then
        current :: fillFrom width inner closing t rest
      else fillFrom width inner closing candidate rest

def fill (width col : Int) (shape : Shape) (xs : List Datum) : String :=
  let inner := col + extent shape.opener
  shape.opener ++
    Text.joinWith ("\n" ++ Text.spaces inner)
      (fillFrom width inner (extent shape.closer) "" (xs.map write)) ++
    shape.closer

mutual

/-- The text of a value whose first line starts at column `col`. -/
def layOutAt (width col : Int) : Datum → String
  | .seq shape [] => (Datum.seq shape []).write
  | .map [] => (Datum.map []).write
  | .seq shape (x :: xs) =>
    let flat := (Datum.seq shape (x :: xs)).write
    if col + extent flat ≤ width then flat
    else if (shape == .form || shape == .fn) && x matches .symbol _ then
      let head := shape.opener ++ x.write
      layOutCall width col head (col + extent head) xs ++ shape.closer
    else if shape == .vector && !(x :: xs).any isCollection then fill width col shape (x :: xs)
    else
      let inner := col + extent shape.opener
      shape.opener ++ layOutAt width inner x ++ layOutLines width inner xs ++ shape.closer
  | .map ((k, v) :: es) =>
    let flat := (Datum.map ((k, v) :: es)).write
    if col + extent flat ≤ width then flat
    else
      let inner := col + 1
      "\x7b" ++ k.write ++ " " ++ layOutAt width (inner + extent k.write + 1) v ++
        layOutEntries width inner es ++ "\x7d"
  | v => v.write

/-- The items after the head of a form; `line` is the line of the head so far and `reach` the
column where it ends. -/
def layOutCall (width col : Int) (line : String) (reach : Int) : List Datum → String
  | [] => line
  | x :: xs =>
    if x.staysOnHeadLine && reach + 1 + extent x.write ≤ width then
      layOutCall width col (line ++ " " ++ x.write) (reach + 1 + extent x.write) xs
    else
      line ++ "\n" ++ Text.spaces (col + 2) ++ layOutAt width (col + 2) x ++
        layOutLines width (col + 2) xs

def layOutLines (width col : Int) : List Datum → String
  | [] => ""
  | x :: xs =>
    "\n" ++ Text.spaces col ++ layOutAt width col x ++ layOutLines width col xs

def layOutEntries (width col : Int) : List (Datum × Datum) → String
  | [] => ""
  | (k, v) :: es =>
    ",\n" ++ Text.spaces col ++ k.write ++ " " ++ layOutAt width (col + extent k.write + 1) v ++
      layOutEntries width col es

end

def defaultWidth : Int := 72

/-- The text of a value laid out to a right margin, its first line starting at column `indent`, if
the value can be written. -/
def layOut? (v : Datum) (width indent : Int) : Except Fault String :=
  v.ifWritable (v.layOutAt width indent)

end PageForms.Datum
