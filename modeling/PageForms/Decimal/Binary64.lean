import PageForms.Text.Blank
import PageForms.Text.Digit
import PageForms.Text.LowerCase

/-!
# Double-precision numbers

A double-precision number is kept as its sign, significand and exponent, so that reading, comparing
and adding are exact arithmetic on natural numbers followed by one rounding.

The rounding is to the nearest representable number, and a tie goes to the even significand.
-/

namespace PageForms

/-- A double-precision number. `finite s m q` has the value `m * 2 ^ q`, negated when `s` holds. -/
inductive Binary64 where
  | finite (negative : Bool) (significand : Nat) (exponent : Int)
  | infinite (negative : Bool)
  | nan
deriving DecidableEq, Repr, Inhabited

namespace Binary64

def minExponent : Int := -1074

def maxExponent : Int := 971

def zero (negative : Bool) : Binary64 :=
  .finite negative 0 minExponent

/-- The quotient rounded to the nearest natural number, a half going to the even one. -/
def roundQuotient (num den : Nat) : Nat :=
  let q := num / den
  let r := num % den
  if 2 * r < den then q
  else if den < 2 * r then q + 1
  else if q % 2 = 0 then q
  else q + 1

def scale (num den : Nat) (q : Int) : Nat × Nat :=
  (num * Nat.pow 2 (-q).toNat, den * Nat.pow 2 q.toNat)

def fits (num den : Nat) (q : Int) : Bool :=
  (scale num den q).1 < (scale num den q).2 * Nat.pow 2 53

/-- The least exponent from `minExponent` on under which the quotient needs at most 53 bits. -/
def exponentFor (num den : Nat) : Int :=
  let guess : Int := (num.log2 : Int) - (den.log2 : Int) - 53
  max (if fits num den guess then guess else guess + 1) minExponent

def bounded (negative : Bool) (m : Nat) (q : Int) : Binary64 :=
  if maxExponent < q then .infinite negative else .finite negative m q

/-- The number with this significand and exponent; a significand that rounding has brought to 54
bits is halved. -/
def pack (negative : Bool) (m : Nat) (q : Int) : Binary64 :=
  if m = Nat.pow 2 53 then bounded negative (Nat.pow 2 52) (q + 1) else bounded negative m q

def ofRatio (negative : Bool) (num den : Nat) : Binary64 :=
  if num = 0 then zero negative
  else
    let q := exponentFor num den
    pack negative (roundQuotient (scale num den q).1 (scale num den q).2) q

/-- The number nearest to `digits * 10 ^ exponent`. Exponents far outside the range are settled
without raising ten to them. -/
def ofDecimal (negative : Bool) (digits : Nat) (exponent : Int) : Binary64 :=
  if digits = 0 then zero negative
  else if 400 < exponent then .infinite negative
  else if exponent < -400 - ((digits.log2 : Int) + 1) then zero negative
  else if 0 ≤ exponent then ofRatio negative (digits * Nat.pow 10 exponent.toNat) 1
  else ofRatio negative digits (Nat.pow 10 (-exponent).toNat)

def ofInt (n : Int) : Binary64 :=
  ofDecimal (n < 0) n.natAbs 0

def magnitude (significand : Nat) (exponent : Int) : Nat × Nat :=
  scale significand 1 (-exponent)

def equalsInt (x : Binary64) (n : Int) : Bool :=
  match x with
  | .finite negative m q =>
    let (num, den) := magnitude m q
    num == n.natAbs * den && (m == 0 || negative == decide (n < 0))
  | _ => false

/-- The numbers have the same value: the two zeros do, and a `nan` has none. -/
def equal : Binary64 → Binary64 → Bool
  | .finite s m q, .finite s' m' q' => (m == 0 && m' == 0) || (s == s' && m == m' && q == q')
  | .infinite s, .infinite s' => s == s'
  | _, _ => false

def signed (negative : Bool) (m : Nat) (q low : Int) : Int :=
  let n : Int := (m * Nat.pow 2 (q - low).toNat : Nat)
  if negative then -n else n

def add : Binary64 → Binary64 → Binary64
  | .nan, _ => .nan
  | _, .nan => .nan
  | .infinite s, .infinite s' => if s = s' then .infinite s else .nan
  | .infinite s, _ => .infinite s
  | _, .infinite s => .infinite s
  | .finite s m q, .finite s' m' q' =>
    let low := min q q'
    let sum := signed s m q low + signed s' m' q' low
    if sum = 0 then zero (s && s')
    else
      let (num, den) := magnitude sum.natAbs low
      ofRatio (sum < 0) num den

/-- A decimal number split into the value of its digits and its exponent of ten. -/
structure Decimal where
  negative : Bool
  digits : Nat
  exponent : Int
deriving DecidableEq, Repr

def Decimal.toBinary64 (d : Decimal) : Binary64 :=
  ofDecimal d.negative d.digits d.exponent

def takeSign : List Char → Bool × List Char
  | '-' :: cs => (true, cs)
  | '+' :: cs => (false, cs)
  | cs => (false, cs)

def exponentPart? (cs : List Char) : Option Int :=
  match cs with
  | mark :: rest =>
    if mark == 'e' || mark == 'E' then
      let (negative, rest) := takeSign rest
      match Text.takeDigits Text.digitValue? rest with
      | (d :: ds, []) =>
        let n : Int := Text.ofDigits 10 (d :: ds)
        some (if negative then -n else n)
      | _ => none
    else none
  | [] => none

/-- A number with a point or an exponent: digits, then a point with more digits and perhaps an
exponent, or an exponent alone. -/
def decimal? (cs : List Char) : Option Decimal :=
  let (negative, cs) := takeSign cs
  match Text.takeDigits Text.digitValue? cs with
  | ([], _) => none
  | (whole, '.' :: rest) =>
    let (fraction, rest) := Text.takeDigits Text.digitValue? rest
    let exponent? := if rest.isEmpty then some 0 else exponentPart? rest
    exponent?.map fun e => ⟨negative, Text.ofDigits 10 (whole ++ fraction), e - fraction.length⟩
  | (whole, rest) => (exponentPart? rest).map fun e => ⟨negative, Text.ofDigits 10 whole, e⟩

/-- Reads the text of a number: with or without a point and an exponent, infinite or not a number,
in any case, with white space around it and underscores between its digits. -/
def ofText? (s : String) : Option Binary64 :=
  let (negative, cs) := takeSign ((Text.strip s.toList).filter (· != '_'))
  let word := Text.lower (String.ofList cs)
  if word == "inf" || word == "infinity" then some (.infinite negative)
  else if word == "nan" then some .nan
  else
    let cs := if cs.head? == some '.' then '0' :: cs else cs
    match cs, Text.takeDigits Text.digitValue? cs with
    | _ :: _, (_ :: _, []) => (decimal? (cs ++ ['.'])).map fun d =>
        ({ d with negative := negative } : Decimal).toBinary64
    | _, _ => (decimal? cs).map fun d => ({ d with negative := negative } : Decimal).toBinary64

end Binary64

end PageForms
