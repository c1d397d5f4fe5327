import PageForms.Text.CaseTable

/-!
# Lower case

Every capital becomes its small letter, and every other character stays. Two capitals are special:
the dotted capital I becomes a small i with a dot put over it, and a capital sigma at the end of a
word becomes the small letter that is written there.
-/

namespace PageForms.Text

def lowerChar (c : Char) : Char :=
  let n := c.toNat
  if n < 0x80 then if 0x41 ≤ n && n ≤ 0x5a then Char.ofNat (n + 32) else c
  else
    match capitalRuns.find? (·.contains n) with
    | some run => Char.ofNat (n + run.offset).toNat
    | none => c

def nextIsCased (cs : List Char) : Bool :=
  match cs.dropWhile caseIgnorableRanges.contains with
  | c :: _ => casedRanges.contains c
  | [] => false

/-- The lower case of a capital sigma between two texts, the first of them read backwards. -/
def lowerSigma (before after : List Char) : Char :=
  if nextIsCased before && !nextIsCased after then 'ς' else 'σ'

def lowerFrom (before : List Char) : List Char → List Char
  | [] => []
  | c :: cs =>
    if c = 'İ' then 'i' :: '\u0307' :: lowerFrom (c :: before) cs
    else if c = 'Σ' then lowerSigma before cs :: lowerFrom (c :: before) cs
    else lowerChar c :: lowerFrom (c :: before) cs

def lower (s : String) : String :=
  String.ofList (lowerFrom [] s.toList)

def isLetter (c : Char) : Bool :=
  ('a' ≤ c && c ≤ 'z') || ('A' ≤ c && c ≤ 'Z')

end PageForms.Text
