import PageForms.Text.Invisible

/-!
# Text in quotes for inspection

A text between single quotes in which every character can be seen: backslashes, quotes, line ends
and tabs are escaped, and so are the characters that have no shape of their own.
-/

namespace PageForms.Text

def hexDigits (width n : Nat) : List Char :=
  let digits := Nat.toDigits 16 n
  List.replicate (width - digits.length) '0' ++ digits

def inspectChar (mark c : Char) : List Char :=
  if c = '\\' then ['\\', '\\']
  else if c = mark then ['\\', mark]
  else if c = '\n' then ['\\', 'n']
  else if c = '\r' then ['\\', 'r']
  else if c = '\t' then ['\\', 't']
  else if isInvisible c then
    let n := c.toNat
    if n < 0x100 then '\\' :: 'x' :: hexDigits 2 n
    else if n < 0x10000 then '\\' :: 'u' :: hexDigits 4 n
    else '\\' :: 'U' :: hexDigits 8 n
  else [c]

/-- The text in single quotes, or in double quotes if it holds a single one and no double one. -/
def inspect (s : String) : String :=
  let cs := s.toList
  let mark := if cs.contains '\x27' && !cs.contains '\x22' then '\x22' else '\x27'
  String.ofList (mark :: cs.flatMap (inspectChar mark) ++ [mark])

end PageForms.Text
