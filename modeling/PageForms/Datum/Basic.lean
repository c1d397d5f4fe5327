import PageForms.Decimal.Binary64
import PageForms.Fault

/-!
# Data

The values of the notation: atoms, bracketed sequences and maps. A sequence remembers the brackets
it was written in. A `list` or `tuple` is a sequence without brackets of its own: the forms of a
whole text are a `list`.

The entries of a map stand in the order they were written in.
-/

namespace PageForms

/-- The kind of a sequence. -/
inductive Shape where
  | form
  | fn
  | vector
  | set
  | list
  | tuple
deriving DecidableEq, Repr, Inhabited

/-- The shape of what can be called: a form or an anonymous function. -/
def Shape.isCall : Shape → Bool
  | .form | .fn => true
  | _ => false

/-- A value of the notation. -/
inductive Datum where
  | nil
  | bool (b : Bool)
  | int (n : Int)
  | float (x : Binary64)
  | str (s : String)
  | symbol (name : String)
  /-- The name is without the colon. -/
  | keyword (name : String)
  /-- Notation that is kept as it was written. -/
  | literal (text : String)
  | seq (shape : Shape) (items : List Datum)
  | map (entries : List (Datum × Datum))
deriving Repr, Inhabited

abbrev Entries := List (Datum × Datum)

namespace Datum

@[match_pattern] abbrev form (items : List Datum) : Datum := .seq .form items

@[match_pattern] abbrev vector (items : List Datum) : Datum := .seq .vector items

@[match_pattern] abbrev list (items : List Datum) : Datum := .seq .list items

/-- The form `(head items...)`. -/
def call (head : String) (items : List Datum) : Datum :=
  .form (.symbol head :: items)

def isCollection : Datum → Bool
  | .seq .. | .map .. => true
  | _ => false

def isMap : Datum → Bool
  | .map _ => true
  | _ => false

def isVector : Datum → Bool
  | .seq .vector _ => true
  | _ => false

def isLiteral : Datum → Bool
  | .literal _ => true
  | _ => false

/-- The items of a form or an anonymous function that has any. -/
def formItems? : Datum → Option (List Datum)
  | .seq .form (x :: xs) | .seq .fn (x :: xs) => some (x :: xs)
  | _ => none

def isForm (v : Datum) : Bool :=
  v.formItems?.isSome

mutual

/-- Every integer in the value is short enough to be written in decimal. -/
def writable : Datum → Bool
  | .int n => n.natAbs < Nat.pow 10 digitLimit
  | .seq _ xs => allWritable xs
  | .map es => entriesWritable es
  | _ => true

def allWritable : List Datum → Bool
  | [] => true
  | x :: xs => writable x && allWritable xs

def entriesWritable : List (Datum × Datum) → Bool
  | [] => true
  | (k, v) :: es => writable k && writable v && entriesWritable es

end

/-- A text made from a value, unless an integer in the value is too long to be written. -/
@[macro_inline] def ifWritable (v : Datum) (text : String) : Except Fault String :=
  if v.writable then .ok text else .error .unwritableInteger

end Datum

end PageForms
