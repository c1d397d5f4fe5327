import PageForms.Decimal.Binary64
import PageForms.Text.Named

/-!
# Values of settings files

The values that a TOML text can hold, and what the readers of its parts share: each takes what
stands at the front of a text and gives it together with the rest.
-/

namespace PageForms.Toml

/-- A value of a settings file. -/
inductive Value where
  | str (s : String)
  | int (n : Int)
  | float (x : Binary64)
  | bool (b : Bool)
  /-- A date, a time of day or both, as it is written. -/
  | moment (text : String)
  | array (items : List Value)
  | table (entries : List (String × Value))
deriving Repr, Inhabited

namespace Value

def isNested : Value → Bool
  | array _ | table _ => true
  | _ => false

end Value

abbrev Table := Named Value

abbrev Key := List String

/-- Why a text is refused. -/
inductive Problem where
  | malformed
  /-- A decimal integer is too long to be read. -/
  | tooManyDigits (count : Nat)
deriving DecidableEq, Repr

abbrev Front (α : Type) := α × List Char

def isGap (c : Char) : Bool :=
  c == ' ' || c == '\t'

def isSpace (c : Char) : Bool :=
  isGap c || c == '\n'

def isControl (c : Char) : Bool :=
  (c.toNat < 0x20 && c != '\t') || c.toNat == 0x7f

def skipComment (cs : List Char) : Except Problem (List Char) :=
  match cs with
  | '#' :: cs =>
    if (cs.takeWhile (· != '\n')).any isControl then .error .malformed
    else .ok (cs.dropWhile (· != '\n'))
  | cs => .ok cs

def skipFiller (inComment : Bool) : List Char → Except Problem (List Char)
  | [] => .ok []
  | c :: cs =>
    if inComment then
      if c = '\n' then skipFiller false cs
      else if isControl c then .error .malformed
      else skipFiller true cs
    else if isSpace c then skipFiller false cs
    else if c = '#' then skipFiller true cs
    else .ok (c :: cs)

end PageForms.Toml
