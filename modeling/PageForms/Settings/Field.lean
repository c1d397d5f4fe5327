import PageForms.Fault
import PageForms.Files.Path
import PageForms.Settings.IntegerText
import PageForms.Settings.Toml.Value

/-!
# Fields of records

Values for fields are checked one by one, each for the kind of value that its field takes.

The checks are made by a validation library. That it takes and refuses values by the rules written
out here, and answers with the kinds of fault named here, is an assumption about it.
-/

namespace PageForms

/-- A value for a field, before it is checked. -/
inductive FieldValue where
  | null
  | bool (b : Bool)
  | int (n : Int)
  | float (x : Binary64)
  | str (s : String)
  | path (p : Path)
  | other
deriving DecidableEq, Repr

namespace FieldValue

def text? : FieldValue → Except FieldFault String
  | .str s => .ok s
  | _ => .error .notText

def optionalText? : FieldValue → Except FieldFault (Option String)
  | .null => .ok none
  | .str s => .ok (some s)
  | _ => .error .notText

def optionalPath? : FieldValue → Except FieldFault (Option Path)
  | .null => .ok none
  | .str s => .ok (some (Path.ofText s))
  | .path p => .ok (some p)
  | _ => .error .notPath

/-- Whole numbers that are given as floats have to be below this bound. -/
def wholeLimit : Nat := Nat.pow 2 63

def intOfFloat? : Binary64 → Except FieldFault Int
  | .finite negative m q =>
    let (num, den) := Binary64.magnitude m q
    if num % den != 0 then .error .fractional
    else if wholeLimit ≤ num / den then .error .tooLarge
    else
      let n : Int := num / den
      .ok (if negative then -n else n)
  | _ => .error .notFinite

def int? : FieldValue → Except FieldFault Int
  | .int n => .ok n
  | .bool b => .ok (if b then 1 else 0)
  | .float x => intOfFloat? x
  | .str s =>
    if IntegerText.isTooLong s then .error .tooLarge
    else
      match IntegerText.read? s with
      | some n => .ok n
      | none => .error .notIntegerText
  | _ => .error .notInteger

def minWidth : Int := 20

/-- A right margin that leaves room to lay a module out. -/
def width? (v : FieldValue) : Except FieldFault Int := do
  let n ← v.int?
  if n < minWidth then throw (.tooNarrow n)
  return n

def ofToml : Toml.Value → FieldValue
  | .str s => .str s
  | .int n => .int n
  | .float x => .float x
  | .bool b => .bool b
  | .moment _ | .array _ | .table _ => .other

end FieldValue

def FieldFault.ofCheck {α : Type} (name : String) :
    Except FieldFault α → List (String × FieldFault)
  | .ok _ => []
  | .error f => [(name, f)]

end PageForms
