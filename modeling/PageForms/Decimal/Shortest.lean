import PageForms.Decimal.Binary64
import PageForms.Text.Join

/-!
# The shortest text of a number

A finite number is written with the fewest significant digits that read back as the same number,
and of these with the ones nearest to it. Numbers from `1e-4` up to below `1e16` are written
positionally and always with a point; the others have an exponent of at least two digits and a
sign.
-/

namespace PageForms.Binary64

/-- The largest `e` with `10 ^ e` not above the quotient, for quotients above `10 ^ -340`. -/
def decimalExponent (num den : Nat) : Int :=
  ((Text.decimal (num * Nat.pow 10 340 / den)).length : Int) - 341

def decimalScale (num den : Nat) (k : Int) : Nat × Nat :=
  (num * Nat.pow 10 (-k).toNat, den * Nat.pow 10 k.toNat)

/-- The multiple of `10 ^ k` next to the magnitude that reads back as the number, if there is one;
of two the nearer, and of two equally near the even one. -/
def onGrid? (m : Nat) (q k : Int) : Option Nat :=
  let (num, den) := magnitude m q
  let (num, den) := decimalScale num den k
  let below := num / den
  let reads (d : Nat) : Bool := ofDecimal false d k == .finite false m q
  match reads below, reads (below + 1) with
  | true, true => some (roundQuotient num den)
  | true, false => some below
  | false, true => some (below + 1)
  | false, false => none

def allDigits (m : Nat) (q : Int) : Nat × Int :=
  if 0 ≤ q then (m * Nat.pow 2 q.toNat, 0) else (m * Nat.pow 5 (-q).toNat, q)

def shortestFrom (m : Nat) (q e : Int) : List Nat → Nat × Int
  | [] => allDigits m q
  | n :: ns =>
    match onGrid? m q (e - n) with
    | some d => (d, e - n)
    | none => shortestFrom m q e ns

/-- Digits `d` and an exponent `k` such that `d * 10 ^ k` reads back as the number, `d` being as
short as possible. -/
def shortest (m : Nat) (q : Int) : Nat × Int :=
  let (num, den) := magnitude m q
  shortestFrom m q (decimalExponent num den) (List.range 17)

def trimZeros (digits : List Char) : List Char :=
  (digits.reverse.dropWhile (· == '0')).reverse

/-- Positional notation: the point stands after the first `point` digits. -/
def positional (digits : List Char) (point : Int) : List Char :=
  if point ≤ 0 then '0' :: '.' :: List.replicate (-point).toNat '0' ++ digits
  else
    let n := point.toNat
    let whole := digits.take n ++ List.replicate (n - digits.length) '0'
    let fraction := digits.drop n
    whole ++ '.' :: (if fraction.isEmpty then ['0'] else fraction)

def exponentText (x : Int) : List Char :=
  let digits := Text.decimal x.natAbs
  (if x < 0 then '-' else '+') :: (if digits.length < 2 then '0' :: digits else digits)

def scientific (digits : List Char) (x : Int) : List Char :=
  match digits with
  | [] => []
  | [d] => d :: 'e' :: exponentText x
  | d :: ds => d :: '.' :: ds ++ 'e' :: exponentText x

def magnitudeText (m : Nat) (q : Int) : List Char :=
  if m = 0 then ['0', '.', '0']
  else
    let (d, k) := shortest m q
    let all := Text.decimal d
    let digits := trimZeros all
    let x : Int := k + all.length - 1
    if -4 ≤ x ∧ x < 16 then positional digits (x + 1) else scientific digits x

def text : Binary64 → String
  | .finite negative m q =>
    String.ofList (if negative then '-' :: magnitudeText m q else magnitudeText m q)
  | .infinite negative => if negative then "-inf" else "inf"
  | .nan => "nan"

end PageForms.Binary64
