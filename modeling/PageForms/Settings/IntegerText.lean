import PageForms.Decimal.Binary64
import PageForms.Fault
import PageForms.Text.Blank
import PageForms.Text.Digit

/-!
# Integers given as texts

A *plain* integer is a minus sign, if it is negative, and digits without a zero in front. A text is
made plain first: white space around it goes, and so do a plus sign, zeros in front with all
underscores among them, a point with zeros behind it, and single underscores elsewhere. A minus sign
may stand before the zeros or behind them.

These are the rules by which the validation library of `Settings.Field` is assumed to take a text
for an integer.
-/

namespace PageForms.IntegerText

/-- The white space that may stand around an integer: all but the information separators. -/
def isMargin (c : Char) : Bool :=
  Text.isBlank c && !(0x1c ≤ c.toNat && c.toNat ≤ 0x1f)

def trim (cs : List Char) : List Char :=
  ((cs.dropWhile isMargin).reverse.dropWhile isMargin).reverse

/-- The text without more zeros, behind the character `last` of those in front. Underscores go with
them; the last character stays if nothing but a fraction follows. -/
def dropMoreZeros? (last : Char) : List Char → Option (List Char)
  | [] => some [last]
  | c :: cs =>
    if c = '0' || c = '_' then dropMoreZeros? c cs
    else if c.isDigit || c = '-' then some (c :: cs)
    else if c = '.' then some (last :: c :: cs)
    else none

def dropZeros? (cs : List Char) : Option (List Char) :=
  match cs with
  | [] => none
  | '0' :: rest => dropMoreZeros? '0' rest
  | c :: _ => if c.isDigit then some cs else none

def dropFraction (cs : List Char) : List Char :=
  match cs.dropWhile (· != '.') with
  | _ :: z :: zeros => if (z :: zeros).all (· == '0') then cs.takeWhile (· != '.') else cs
  | _ => cs

def hasDoubleUnderscore : List Char → Bool
  | '_' :: '_' :: _ => true
  | _ :: cs => hasDoubleUnderscore cs
  | [] => false

/-- The text without its underscores, unless one stands at an end or two stand together. -/
def dropUnderscores (cs : List Char) : List Char :=
  if cs.head? == some '_' || cs.getLast? == some '_' || hasDoubleUnderscore cs then cs
  else cs.filter (· != '_')

def plain? (cs : List Char) : Option (List Char) := do
  let (negative, body) := Binary64.takeSign (trim cs)
  let body := dropUnderscores (dropFraction (← dropZeros? body))
  return if negative then '-' :: body else body

def magnitude? (cs : List Char) : Option Nat :=
  match cs with
  | [] => none
  | '0' :: _ :: _ => none
  | _ => (cs.mapM Text.asciiDigit?).map (Text.ofDigits 10)

def ofPlain? (cs : List Char) : Option Int :=
  if digitLimit < cs.length then none
  else
    match cs with
    | '-' :: digits => (magnitude? digits).map fun n => -(n : Int)
    | digits => (magnitude? digits).map fun n => (n : Int)

def read? (s : String) : Option Int :=
  (plain? s.toList).bind ofPlain?

/-- The text starts, perhaps behind a minus sign, with more digits than are read, and the first of
them is no zero. -/
def isTooLong (s : String) : Bool :=
  let (sign, digits) : Nat × List Char := match s.toList with
    | '-' :: cs => (1, cs.takeWhile Char.isDigit)
    | cs => (0, cs.takeWhile Char.isDigit)
  digits.head? != some '0' && digitLimit < sign + digits.length

end PageForms.IntegerText
