import PageForms.Fault
import PageForms.Markup.NamedReference
import PageForms.Text.Digit
import PageForms.Text.Quoted

/-!
# Character references

References in markup stand for characters: by number, in decimal or hexadecimal, or by name. Some
names may be written without their semicolon, and then may run into other text. What is no
reference stays as it is.
-/

namespace PageForms.Reference

def named? (name : List Char) : Option (List Char) :=
  match name with
  | [] => none
  | first :: rest => ((namesFrom first).lookup (String.ofList rest)).map (·.map Char.ofNat)

/-- The characters that numbers from 0x80 to 0x9f stand for. -/
def lateControls : List Nat :=
  [0x20ac, 0x81, 0x201a, 0x192, 0x201e, 0x2026, 0x2020, 0x2021, 0x2c6, 0x2030, 0x160, 0x2039,
   0x152, 0x8d, 0x17d, 0x8f, 0x90, 0x2018, 0x2019, 0x201c, 0x201d, 0x2022, 0x2013, 0x2014, 0x2dc,
   0x2122, 0x161, 0x203a, 0x153, 0x9d, 0x17e, 0x178]

def isForbidden (n : Nat) : Bool :=
  (1 ≤ n && n ≤ 8) || n == 0xb || (0xe ≤ n && n ≤ 0x1f) || n == 0x7f ||
    (0xfdd0 ≤ n && n ≤ 0xfdef) || n % 0x10000 == 0xfffe || n % 0x10000 == 0xffff

def ofNumber (n : Nat) : List Char :=
  if n = 0 then [Char.ofNat 0xfffd]
  else if 0x80 ≤ n ∧ n ≤ 0x9f then [Char.ofNat (lateControls.getD (n - 0x80) 0xfffd)]
  else if (0xd800 ≤ n ∧ n ≤ 0xdfff) ∨ 0x10ffff < n then [Char.ofNat 0xfffd]
  else if isForbidden n then []
  else [Char.ofNat n]

def dropSemicolon : List Char → List Char
  | ';' :: cs => cs
  | cs => cs

/-- A number at the front, the characters it stands for and what follows it. -/
def number? (cs : List Char) : Option (Except Fault (List Char) × List Char) :=
  let hex :=
    match cs with
    | x :: rest =>
      if x == 'x' || x == 'X' then
        match Text.takeDigits Text.hexValue? rest with
        | ([], _) => none
        | (digits, rest) =>
          some (Except.ok (ofNumber (Text.ofDigits 16 digits)), dropSemicolon rest)
      else none
    | [] => none
  match Text.takeDigits Text.asciiDigit? cs with
  | ([], _) => hex
  | (digits, rest) =>
    let chars : Except Fault (List Char) :=
      if digits.length ≤ digitLimit then .ok (ofNumber (Text.ofDigits 10 digits))
      else .error (.tooManyDigits digits.length)
    some (chars, dropSemicolon rest)

def isNameChar (c : Char) : Bool :=
  !(['\t', '\n', '\x0c', ' ', '<', '&', '#', ';'].contains c)

/-- The longest known name, of at least two characters, among the first `n` characters; the
characters it stands for, followed by the others. -/
def longestName? (name : List Char) : Nat → Option (List Char)
  | 0 | 1 => none
  | n + 2 =>
    match named? (name.take (n + 2)) with
    | some chars => some (chars ++ name.drop (n + 2))
    | none => longestName? name (n + 1)

def takeName (cs : List Char) : List Char × List Char :=
  let name := (cs.take 32).takeWhile isNameChar
  match cs.drop name.length with
  | ';' :: rest => (name ++ [';'], rest)
  | rest => (name, rest)

/-- What a name stands for; an unknown one stands for itself. -/
def resolve (name : List Char) : List Char :=
  match named? name with
  | some chars => chars
  | none => (longestName? name (name.length - 1)).getD ('&' :: name)

def reference? (cs : List Char) : Option (Except Fault (List Char) × List Char) :=
  match cs with
  | '#' :: rest => number? rest
  | _ =>
    match takeName cs with
    | ([], _) => none
    | ([';'], _) => none
    | (name, rest) => some (.ok (resolve name), rest)

def decode (cs : List Char) : Except Fault (List Char) :=
  match cs with
  | [] => .ok []
  | c :: cs =>
    if c = '&' then
      match reference? cs with
      | some (chars, rest) => do
        let front ← chars
        return front ++ (← decode (cs.drop (cs.length - rest.length)))
      | none => (c :: ·) <$> decode cs
    else (c :: ·) <$> decode cs
termination_by cs.length
decreasing_by
  all_goals simp only [List.length_cons, List.length_drop]
  all_goals omega

end PageForms.Reference
