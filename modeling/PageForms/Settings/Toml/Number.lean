import PageForms.Fault
import PageForms.Settings.Toml.Value
import PageForms.Text.Digit

/-!
# Numbers of settings files

An integer is decimal, without zeros in front, or in another base behind a mark. A number with a
fraction or an exponent is a float. Single underscores may stand between digits.
-/

namespace PageForms.Toml

def digitOf? (base : Nat) (c : Char) : Option Nat :=
  (Text.hexValue? c).filter (· < base)

def baseOf? (mark : Char) : Option Nat :=
  if mark = 'x' then some 16 else if mark = 'o' then some 8 else if mark = 'b' then some 2 else none

def basedInt? (cs : List Char) : Option (Value × List Char) :=
  match cs with
  | '0' :: mark :: rest =>
    match baseOf? mark with
    | none => none
    | some base =>
      match Text.takeGroupedDigits (digitOf? base) rest with
      | ([], _) => none
      | (digits, rest) => some (.int (Text.ofDigits base digits), rest)
  | _ => none

/-- The digits of an integer part: a zero alone, or digits that start with another one. -/
def wholeDigits (cs : List Char) : List Nat × List Char :=
  match cs with
  | '0' :: rest => ([0], rest)
  | _ => Text.takeGroupedDigits Text.asciiDigit? cs

def fractionDigits (cs : List Char) : List Nat × List Char :=
  match cs with
  | '.' :: rest =>
    match Text.takeGroupedDigits Text.asciiDigit? rest with
    | ([], _) => ([], cs)
    | found => found
  | _ => ([], cs)

def exponent? (cs : List Char) : Option (Int × List Char) :=
  match cs with
  | mark :: rest =>
    if mark == 'e' || mark == 'E' then
      let (negative, rest) := Binary64.takeSign rest
      match Text.takeGroupedDigits Text.asciiDigit? rest with
      | ([], _) => none
      | (digits, rest) =>
        let n : Int := Text.ofDigits 10 digits
        some (if negative then -n else n, rest)
    else none
  | [] => none

def decimalInt (negative : Bool) (digits : List Nat) : Except Problem Value :=
  if digits.length ≤ digitLimit then
    let n : Int := Text.ofDigits 10 digits
    .ok (.int (if negative then -n else n))
  else .error (.tooManyDigits digits.length)

def decimalFloat (negative : Bool) (whole fraction : List Nat) (exponent : Int) : Value :=
  .float (Binary64.ofDecimal negative (Text.ofDigits 10 (whole ++ fraction))
    (exponent - fraction.length))

def decimal? (cs : List Char) : Option (Except Problem (Front Value)) :=
  let (negative, body) := Binary64.takeSign cs
  match wholeDigits body with
  | ([], _) => none
  | (whole, rest) =>
    let (fraction, rest) := fractionDigits rest
    match fraction, exponent? rest with
    | [], none => some ((·, rest) <$> decimalInt negative whole)
    | _, none => some (.ok (decimalFloat negative whole fraction 0, rest))
    | _, some (e, rest) => some (.ok (decimalFloat negative whole fraction e, rest))

def wordFloat? (cs : List Char) : Option (Value × List Char) :=
  let (negative, body) := Binary64.takeSign cs
  match body with
  | 'i' :: 'n' :: 'f' :: rest => some (.float (.infinite negative), rest)
  | 'n' :: 'a' :: 'n' :: rest => some (.float .nan, rest)
  | _ => none

def number? (cs : List Char) : Option (Except Problem (Front Value)) :=
  match basedInt? cs with
  | some found => some (.ok found)
  | none =>
    match decimal? cs with
    | some found => some found
    | none => (wordFloat? cs).map Except.ok

end PageForms.Toml
