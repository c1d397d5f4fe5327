import PageForms.Datum.Basic

/-!
# Reading atoms

The value of an atom's text: a constant, a number, a keyword or a symbol. What looks like a number
but is none of those that have a value, such as a ratio, is kept as it is written, and so is a
keyword with two colons.
-/

namespace PageForms.Reader

def hexInt? (cs : List Char) : Option Int :=
  let (negative, cs) := Binary64.takeSign cs
  match cs with
  | '0' :: x :: rest =>
    if x == 'x' || x == 'X' then
      match Text.takeDigits Text.hexValue? rest with
      | (d :: ds, []) =>
        let n : Int := Text.ofDigits 16 (d :: ds)
        some (if negative then -n else n)
      | _ => none
    else none
  | _ => none

def intDigits? (cs : List Char) : Option (Bool × List Nat) :=
  let (negative, cs) := Binary64.takeSign cs
  match Text.takeDigits Text.digitValue? cs with
  | (d :: ds, []) => some (negative, d :: ds)
  | _ => none

def ofDigits (negative : Bool) (digits : List Nat) : Except Fault Datum :=
  if digits.length ≤ digitLimit then
    let n : Int := Text.ofDigits 10 digits
    .ok (.int (if negative then -n else n))
  else .error (.tooManyDigits digits.length)

def startsLikeNumber : List Char → Bool
  | c :: d :: _ => Text.isDigitLike c || ((c == '+' || c == '-') && Text.isDigitLike d)
  | [c] => Text.isDigitLike c
  | [] => false

def readName (text : String) : Except Fault Datum :=
  match text.toList with
  | [] => .error .outOfRange
  | c :: cs =>
    if startsLikeNumber (c :: cs) then .ok (.literal text)
    else
      match c, cs with
      | ':', ':' :: _ => .ok (.literal text)
      | ':', _ => .ok (.keyword (String.ofList cs))
      | _, _ => .ok (.symbol text)

def readAtom (text : String) : Except Fault Datum :=
  if text = "nil" then .ok .nil
  else if text = "true" then .ok (.bool true)
  else if text = "false" then .ok (.bool false)
  else
    match hexInt? text.toList with
    | some n => .ok (.int n)
    | none =>
      match intDigits? text.toList with
      | some (negative, digits) => ofDigits negative digits
      | none =>
        match Binary64.decimal? text.toList with
        | some d => .ok (.float d.toBinary64)
        | none => readName text

end PageForms.Reader
