import PageForms.Datum.Basic
import PageForms.Decimal.Shortest
import PageForms.Text.Quoted

/-!
# Writing data on one line

`Datum.write` is the text of a value on one line. It reads back as the value. `Datum.text?` refuses
a value with an integer that is too long to be written.
-/

namespace PageForms

def Shape.opener : Shape → String
  | .fn => "#("
  | .vector => "["
  | .set => "#\x7b"
  | .form | .list | .tuple => "("

def Shape.closer : Shape → String
  | .vector => "]"
  | .set => "\x7d"
  | .form | .fn | .list | .tuple => ")"

namespace Datum

mutual

def write : Datum → String
  | .nil => "nil"
  | .bool true => "true"
  | .bool false => "false"
  | .int n => Text.decimalInt n
  | .float x => x.text
  | .str s => Text.quote s
  | .symbol name => name
  | .keyword name => ":" ++ name
  | .literal text => text
  | .seq shape xs => shape.opener ++ Text.joinWith " " (writeItems xs) ++ shape.closer
  | .map es => "\x7b" ++ Text.joinWith ", " (writeEntries es) ++ "\x7d"

def writeItems : List Datum → List String
  | [] => []
  | x :: xs => write x :: writeItems xs

def writeEntries : List (Datum × Datum) → List String
  | [] => []
  | (k, v) :: es => (write k ++ " " ++ write v) :: writeEntries es

end

theorem writeItems_eq_map (xs : List Datum) : writeItems xs = xs.map write := by
  induction xs with
  | nil => rfl
  | cons x xs ih => rw [writeItems, ih, List.map_cons]

def text? (v : Datum) : Except Fault String :=
  v.ifWritable v.write

end Datum

end PageForms
