/-!
# Positions in a text

Lines and columns, both counted from one. Only a line feed ends a line.
-/

namespace PageForms.Text

/-- A place in a text. -/
structure Position where
  line : Nat
  column : Nat
deriving DecidableEq, Repr

namespace Position

def start : Position :=
  { line := 1, column := 1 }

def next (p : Position) (c : Char) : Position :=
  if c = '\n' then { line := p.line + 1, column := 1 }
  else { line := p.line, column := p.column + 1 }

def advance (p : Position) (cs : List Char) : Position :=
  cs.foldl next p

def describe (p : Position) : String :=
  s!"line {p.line}, col {p.column}"

end Position

end PageForms.Text
