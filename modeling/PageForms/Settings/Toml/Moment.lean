import PageForms.Settings.Toml.Value
import PageForms.Text.Digit

/-!
# Dates and times of settings files

A date has a year of four digits, a month and a day; a time of day has hours, minutes and seconds,
perhaps with a fraction. Both may stand together, and then perhaps with the offset of a time zone.
-/

namespace PageForms.Toml

def fixedNumber? (count low high : Nat) (cs : List Char) : Option (Nat × List Char) := do
  let digits ← (cs.take count).mapM Text.asciiDigit?
  let n := Text.ofDigits 10 digits
  if digits.length == count && low ≤ n && n ≤ high then some (n, cs.drop count) else none

def skip? (expected : Char) : List Char → Option (List Char)
  | [] => none
  | c :: cs => if c = expected then some cs else none

def daysIn (year month : Nat) : Nat :=
  if month == 2 then
    if year % 4 == 0 && (year % 100 != 0 || year % 400 == 0) then 29 else 28
  else if [4, 6, 9, 11].contains month then 30
  else 31

def skipFraction (cs : List Char) : List Char :=
  match cs with
  | '.' :: rest =>
    match Text.takeDigits Text.asciiDigit? rest with
    | ([], _) => cs
    | (_, rest) => rest
  | _ => cs

def skipTime? (cs : List Char) : Option (List Char) := do
  let (_, cs) ← fixedNumber? 2 0 23 cs
  let (_, cs) ← fixedNumber? 2 0 59 (← skip? ':' cs)
  let (_, cs) ← fixedNumber? 2 0 59 (← skip? ':' cs)
  return skipFraction cs

def skipHours? (cs : List Char) : Option (List Char) := do
  let (_, cs) ← fixedNumber? 2 0 23 cs
  let (_, cs) ← fixedNumber? 2 0 59 (← skip? ':' cs)
  return cs

def skipOffset (cs : List Char) : List Char :=
  match cs with
  | c :: rest =>
    if c == 'Z' || c == 'z' then rest
    else if c == '+' || c == '-' then (skipHours? rest).getD cs
    else cs
  | [] => cs

def skipDayTime (cs : List Char) : List Char :=
  match cs with
  | c :: rest =>
    if c == 'T' || c == 't' || c == ' ' then ((skipTime? rest).map skipOffset).getD cs else cs
  | [] => cs

/-- A date at the front, which may be none of the calendar, and what follows it. -/
def date? (cs : List Char) : Option (Bool × List Char) := do
  let (year, cs) ← fixedNumber? 4 0 9999 cs
  let (month, cs) ← fixedNumber? 2 1 12 (← skip? '-' cs)
  let (day, cs) ← fixedNumber? 2 1 31 (← skip? '-' cs)
  return (1 ≤ year && day ≤ daysIn year month, cs)

def moment? (cs : List Char) : Option (Except Problem (Front Value)) :=
  let written (rest : List Char) : Value × List Char :=
    (.moment (String.ofList (cs.take (cs.length - rest.length))), rest)
  match date? cs with
  | some (valid, rest) =>
    some (if valid then .ok (written (skipDayTime rest)) else .error .malformed)
  | none => (skipTime? cs).map fun rest => .ok (written rest)

end PageForms.Toml
