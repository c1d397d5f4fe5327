import PageForms.Settings.Toml.Value
import PageForms.Text.Digit

/-!
# Strings and keys of settings files

A string is *basic*, in double quotes and with escapes, or *literal*, in single quotes and without.
With three quotes on either side it may run over several lines: a line end behind the opening quotes
does not count, and up to two more quotes may stand before the closing ones. In a basic string of
that kind a backslash at the end of a line takes away all white space that follows.
-/

namespace PageForms.Toml

def escaped? (c : Char) : Option Char :=
  if c = 'b' then some '\x08'
  else if c = 't' then some '\t'
  else if c = 'n' then some '\n'
  else if c = 'f' then some '\x0c'
  else if c = 'r' then some '\r'
  else if c = '\x22' || c = '\\' then some c
  else none

def codePoint (count : Nat) (cs : List Char) : Except Problem (Front Char) :=
  match (cs.take count).mapM Text.hexValue? with
  | none => .error .malformed
  | some digits =>
    let n := Text.ofDigits 16 digits
    if digits.length == count && n.isValidChar then .ok (Char.ofNat n, cs.drop count)
    else .error .malformed

def escape (long : Bool) (cs : List Char) : Except Problem (Front (List Char)) :=
  match cs with
  | [] => .error .malformed
  | c :: rest =>
    if long && isSpace c then
      match cs.dropWhile isGap with
      | '\n' :: rest => .ok ([], rest.dropWhile isSpace)
      | _ => .error .malformed
    else if c = 'u' then (fun r => ([r.1], r.2)) <$> codePoint 4 rest
    else if c = 'U' then (fun r => ([r.1], r.2)) <$> codePoint 8 rest
    else
      match escaped? c with
      | some e => .ok ([e], rest)
      | none => .error .malformed

def takeQuotes (quote : Char) : Nat → List Char → List Char × List Char
  | n + 1, c :: cs =>
    if c = quote then (c :: (takeQuotes quote n cs).1, (takeQuotes quote n cs).2) else ([], c :: cs)
  | _, cs => ([], cs)

/-- The three quotes that close a long string, with those before them that belong to the string. -/
def closeLong? (quote : Char) (cs : List Char) : Option (List Char × List Char) :=
  match takeQuotes quote 5 cs with
  | (_ :: _ :: _ :: extra, rest) => some (extra, rest)
  | _ => none

/-- The rest of a basic string behind its opening quotes; it takes at most `fuel` steps. -/
def basicChars (long : Bool) : Nat → List Char → Except Problem (Front (List Char))
  | 0, _ => .error .malformed
  | _, [] => .error .malformed
  | fuel + 1, c :: cs =>
    if c = '\x22' && !long then .ok ([], cs)
    else if c = '\\' then do
      let (front, rest) ← escape long cs
      let (back, rest) ← basicChars long fuel rest
      return (front ++ back, rest)
    else if isControl c && !(long && c == '\n') then .error .malformed
    else
      match (if long then closeLong? '\x22' (c :: cs) else none) with
      | some closing => .ok closing
      | none => do
        let (back, rest) ← basicChars long fuel cs
        return (c :: back, rest)

def literalChars (long : Bool) : List Char → Except Problem (Front (List Char))
  | [] => .error .malformed
  | c :: cs =>
    if c = '\x27' && !long then .ok ([], cs)
    else if isControl c && !(long && c == '\n') then .error .malformed
    else
      match (if long then closeLong? '\x27' (c :: cs) else none) with
      | some closing => .ok closing
      | none => do
        let (back, rest) ← literalChars long cs
        return (c :: back, rest)

def basicString (long : Bool) (cs : List Char) : Except Problem (Front String) :=
  (fun r => (String.ofList r.1, r.2)) <$> basicChars long (cs.length + 1) cs

def literalString (long : Bool) (cs : List Char) : Except Problem (Front String) :=
  (fun r => (String.ofList r.1, r.2)) <$> literalChars long cs

def skipLineEnd : List Char → List Char
  | '\n' :: cs => cs
  | cs => cs

def string? (cs : List Char) : Option (Except Problem (Front String)) :=
  match cs with
  | '\x22' :: '\x22' :: '\x22' :: rest => some (basicString true (skipLineEnd rest))
  | '\x22' :: rest => some (basicString false rest)
  | '\x27' :: '\x27' :: '\x27' :: rest => some (literalString true (skipLineEnd rest))
  | '\x27' :: rest => some (literalString false rest)
  | _ => none

/-! ## Keys -/

def isKeyChar (c : Char) : Bool :=
  c.isAlphanum || c == '_' || c == '-'

def keyName (cs : List Char) : Except Problem (Front String) :=
  match cs with
  | '\x22' :: rest => basicString false rest
  | '\x27' :: rest => literalString false rest
  | _ =>
    let name := cs.takeWhile isKeyChar
    if name.isEmpty then .error .malformed
    else .ok (String.ofList name, cs.dropWhile isKeyChar)

def keyFrom : Nat → List Char → Except Problem (Front Key)
  | 0, _ => .error .malformed
  | fuel + 1, cs => do
    let (name, rest) ← keyName cs
    match rest.dropWhile isGap with
    | '.' :: rest =>
      let (names, rest) ← keyFrom fuel (rest.dropWhile isGap)
      return (name :: names, rest)
    | rest => return ([name], rest)

def key (cs : List Char) : Except Problem (Front Key) :=
  keyFrom (cs.length + 1) cs

end PageForms.Toml
