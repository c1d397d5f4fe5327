import PageForms.Markup.Event
import PageForms.Markup.Node
import PageForms.Markup.Reference
import PageForms.Text.Blank
import PageForms.Text.LowerCase

/-!
# Splitting markup into events

Markup is scanned leniently, from the front. Text reaches up to the next `<`. What a `<` starts is
told by the characters behind it: a tag, a comment, a declaration or nothing. A piece that is never
finished counts as text. Behind an opening `script` or `style` tag everything up to the tag that
closes it is plain text, and is lost if no such tag follows.
-/

namespace PageForms.Scanner

open Text (isBlank isLetter)

/-- What a `<` starts: its events, the element whose plain text follows, if any, and the rest of
the text. -/
structure Piece where
  events : List Event
  raw : Option String
  rest : List Char

/-- The first place where `p` succeeds: the text before it and what `p` gives. -/
def search? {α : Type} (p : List Char → Option α) : List Char → Option (List Char × α)
  | [] => (p []).map ([], ·)
  | c :: cs =>
    match p (c :: cs) with
    | some a => some ([], a)
    | none => (search? p cs).map fun found => (c :: found.1, found.2)

def breakAt? (c : Char) (cs : List Char) : Option (List Char × List Char) :=
  search? (fun rest => if rest.head? = some c then some rest.tail else none) cs

def plain (cs : List Char) : Except Fault Event := do
  return .data (String.ofList (← Reference.decode cs))

def verbatim (cs : List Char) : Event :=
  .data (String.ofList cs)

/-! ## Tags -/

def isTagChar (c : Char) : Bool :=
  !(['\t', '\n', '\r', '\x0c', ' ', '/', '>', '\x00'].contains c)

/-- Drops the white space and slashes between attributes; a slash before `>` is none of them. -/
def skipGap : List Char → List Char
  | [] => []
  | '/' :: '>' :: cs => '/' :: '>' :: cs
  | c :: cs => if isBlank c || c == '/' then skipGap cs else c :: cs

def isNameStart (c : Char) : Bool :=
  !(isBlank c || c == '/' || c == '>')

def isNameChar (c : Char) : Bool :=
  isNameStart c && c != '='

def isBareChar (c : Char) : Bool :=
  !(isBlank c || c == '>')

def isQuote (c : Char) : Bool :=
  c == '\x27' || c == '\x22'

def allowsName (c : Char) : Bool :=
  isQuote c || isBlank c || c == '/'

/-- The value that equals signs at the front assign, and what follows it. A quote that is never
closed takes no value: the white space before it is an empty one, and of several equals signs the
last one starts a value without quotes. -/
def assigned? (cs : List Char) : Option (List Char × List Char) :=
  let signs := (cs.dropWhile isBlank).takeWhile (· == '=')
  let afterSigns := (cs.dropWhile isBlank).dropWhile (· == '=')
  let blanks := afterSigns.takeWhile isBlank
  let value := afterSigns.dropWhile isBlank
  let bare (v : List Char) := some (v.takeWhile isBareChar, v.dropWhile isBareChar)
  if signs.isEmpty then none
  else
    match value with
    | [] => bare []
    | q :: inner =>
      if isQuote q then
        match breakAt? q inner with
        | some found => some found
        | none =>
          match blanks.getLast? with
          | some blank => some ([], blank :: value)
          | none => if 1 < signs.length then bare ('=' :: value) else none
      else bare value

/-- An attribute at the front, behind the character `last`: its name, its value and what follows
the gap behind it. -/
def attribute? (last : Char) (cs : List Char) :
    Option (List Char × Option (List Char) × List Char) :=
  match cs with
  | [] => none
  | c :: cs =>
    if allowsName last && isNameStart c then
      let name := c :: cs.takeWhile isNameChar
      let rest := cs.dropWhile isNameChar
      match assigned? rest with
      | some (value, rest) => some (name, some value, skipGap rest)
      | none => some (name, none, skipGap rest)
    else none

def attributes (last : Char) (cs : List Char) :
    List (List Char × Option (List Char)) × List Char :=
  match cs with
  | [] => ([], [])
  | c :: cs =>
    match attribute? last (c :: cs) with
    | none => ([], c :: cs)
    | some (name, value, rest) =>
      let n := cs.length - rest.length
      let more := attributes ((cs.take n).getLastD c) (cs.drop n)
      ((name, value) :: more.1, more.2)
termination_by cs.length
decreasing_by
  simp only [List.length_cons, List.length_drop]
  omega

def decodeAttributes :
    List (List Char × Option (List Char)) → Except Fault (List (String × Option String))
  | [] => .ok []
  | (name, value) :: rest => do
    let value ← match value with
      | none => pure none
      | some v => do pure (some (String.ofList (← Reference.decode v)))
    return (Text.lower (String.ofList name), value) :: (← decodeAttributes rest)

/-- An opening tag; `cs` is the text behind its `<`, which starts with a letter. There is none if
the tag is never finished. -/
def startTag? (cs : List Char) : Except Fault (Option Piece) := do
  let name := cs.takeWhile isTagChar
  let tag := Text.lower (String.ofList name)
  match skipGap (cs.dropWhile isTagChar) with
  | '/' :: '>' :: rest => return some ⟨[.startEnd tag []], none, rest⟩
  | gap =>
    let before := cs.take (cs.length - gap.length)
    let (attrs, rest) := attributes (before.getLastD '<') gap
    match rest with
    | '>' :: rest =>
      let raw := if Node.isRaw tag then some tag else none
      return some ⟨[.start tag (← decodeAttributes attrs)], raw, rest⟩
    | '/' :: '>' :: rest => return some ⟨[.startEnd tag (← decodeAttributes attrs)], none, rest⟩
    | [] => return none
    | c :: rest =>
      if isLetter c || c == '=' || c == '/' then return none
      else
        -- What attributes would say is checked even though the tag counts as text.
        let _ ← decodeAttributes attrs
        let text := '<' :: cs.take (cs.length - (c :: rest).length)
        return some ⟨[verbatim text], none, c :: rest⟩

def isCloseChar (c : Char) : Bool :=
  isLetter c || c.isDigit || c == '-' || c == '.' || c == ':' || c == '_'

/-- A plain closing tag; `cs` is the text behind its `</`. -/
def plainCloseTag? (cs : List Char) : Option (List Char × List Char) :=
  match cs.dropWhile isBlank with
  | [] => none
  | c :: rest =>
    if isLetter c then
      match (rest.dropWhile isCloseChar).dropWhile isBlank with
      | '>' :: after => some (c :: rest.takeWhile isCloseChar, after)
      | _ => none
    else none

/-- A comment that reaches to the next `>`. -/
def bogusComment? (cs : List Char) : Option Piece :=
  (breakAt? '>' cs).map fun (text, rest) => ⟨[.comment (String.ofList text)], none, rest⟩

def closeTag? (cs : List Char) : Option Piece :=
  match plainCloseTag? cs with
  | some (name, rest) => some ⟨[.close (Text.lower (String.ofList name))], none, rest⟩
  | none =>
    match cs with
    | [] => none
    | c :: _ =>
      if isLetter c then
        let name := cs.takeWhile isTagChar
        (breakAt? '>' (skipGap (cs.dropWhile isTagChar))).map fun (_, rest) =>
          ⟨[.close (Text.lower (String.ofList name))], none, rest⟩
      else if c == '>' then some ⟨[], none, cs.tail⟩
      else bogusComment? cs

/-! ## Comments and declarations -/

def commentEnd? : List Char → Option (List Char)
  | '-' :: '-' :: cs =>
    match cs.dropWhile isBlank with
    | '>' :: rest => some rest
    | _ => none
  | _ => none

def bracketEnd? : List Char → Option (List Char)
  | ']' :: cs =>
    match cs.dropWhile isBlank with
    | '>' :: rest => some rest
    | _ => none
  | _ => none

def doubleBracketEnd? : List Char → Option (List Char)
  | ']' :: cs => bracketEnd? (cs.dropWhile isBlank)
  | _ => none

def doubleSections : List String := ["temp", "cdata", "ignore", "include", "rcdata"]

def singleSections : List String := ["if", "else", "endif"]

def isSectionChar (c : Char) : Bool :=
  isLetter c || c.isDigit || c == '-' || c == '_' || c == '.'

/-- A section; `cs` is the text behind its `<![`. It leaves nothing. -/
def section? (cs : List Char) : Except Fault (Option Piece) :=
  match cs with
  | [] => .ok none
  | c :: rest =>
    if isLetter c then
      if ((rest.dropWhile isSectionChar).dropWhile isBlank).isEmpty then .ok none
      else
        let name := Text.lower (String.ofList (c :: rest.takeWhile isSectionChar))
        let ending? :=
          if doubleSections.contains name then some doubleBracketEnd?
          else if singleSections.contains name then some bracketEnd?
          else none
        match ending? with
        | none => .error .unknownDeclaration
        | some ending => .ok ((search? ending cs).map fun found => ⟨[], none, found.2⟩)
    else .error .unknownDeclaration

/-- A declaration or comment; `cs` is the text behind its `<!`. -/
def declaration? (cs : List Char) : Except Fault (Option Piece) :=
  match cs with
  | '-' :: '-' :: rest =>
    .ok ((search? commentEnd? rest).map fun (text, rest) =>
      ⟨[.comment (String.ofList text)], none, rest⟩)
  | '[' :: rest => section? rest
  | _ =>
    if Text.lower (String.ofList (cs.take 7)) = "doctype" then
      .ok ((breakAt? '>' (cs.drop 7)).map fun found => ⟨[], none, found.2⟩)
    else .ok (bogusComment? cs)

/-- An unfinished piece counts as text up to the next `>`, or else up to the next `<`; `cs` is the
text behind its own `<`. -/
def unfinished (cs : List Char) : Except Fault Piece := do
  let (text, rest) :=
    match breakAt? '>' cs with
    | some (text, rest) => (text ++ ['>'], rest)
    | none =>
      match breakAt? '<' cs with
      | some (text, rest) => (text, '<' :: rest)
      | none => ([], cs)
  return ⟨[← plain ('<' :: text)], none, rest⟩

def piece (cs : List Char) : Except Fault Piece := do
  let found? ← match cs with
    | '/' :: rest => pure (closeTag? rest)
    | '!' :: rest => declaration? rest
    | '?' :: rest => pure ((breakAt? '>' rest).map fun found => ⟨[], none, found.2⟩)
    | c :: _ => if isLetter c then startTag? cs else pure (some ⟨[.data "<"], none, cs⟩)
    | [] => pure (some ⟨[.data "<"], none, []⟩)
  match found? with
  | some found => return found
  | none => unfinished cs

/-! ## Plain text in `script` and `style` -/

def spells (letter c : Char) : Bool :=
  Text.lowerChar c == letter || (letter == 's' && c.toNat == 0x17f) ||
    (letter == 'i' && (c.toNat == 0x130 || c.toNat == 0x131))

def nameIn? : List Char → List Char → Option (List Char)
  | [], cs => some cs
  | letter :: name, c :: cs => if spells letter c then nameIn? name cs else none
  | _ :: _, [] => none

/-- The tag that closes an element at the front: the text between its `<` and `>`, and what
follows. -/
def rawEnd? (tag : String) (cs : List Char) : Option (List Char × List Char) :=
  match cs with
  | '<' :: '/' :: rest =>
    match nameIn? tag.toList (rest.dropWhile isBlank) with
    | none => none
    | some after =>
      match after.dropWhile isBlank with
      | '>' :: _ => breakAt? '>' ('/' :: rest)
      | _ => none
  | _ => none

/-- The plain text inside an element and the tag behind it. There is none if the element is never
closed. -/
def rawPiece? (tag : String) (cs : List Char) : Option Piece :=
  (search? (rawEnd? tag) cs).map fun (text, inside, rest) =>
    let front := if text.isEmpty then [] else [verbatim text]
    match plainCloseTag? (inside.tail ++ ['>']) with
    | some (name, _) => ⟨front ++ [.close (Text.lower (String.ofList name))], none, rest⟩
    | none => ⟨front ++ [verbatim ('<' :: inside ++ ['>'])], some tag, rest⟩

/-! ## The whole text -/

/-- The events of a text; with `raw` it starts inside that element. -/
def scanFrom (raw : Option String) (cs : List Char) : Except Fault (List Event) :=
  match cs with
  | [] => .ok []
  | c :: cs =>
    match raw with
    | some tag =>
      match rawPiece? tag (c :: cs) with
      | none => .ok []
      | some found => do
        return found.events ++ (← scanFrom found.raw (cs.drop (cs.length - found.rest.length)))
    | none =>
      if c = '<' then do
        let found ← piece cs
        return found.events ++ (← scanFrom found.raw (cs.drop (cs.length - found.rest.length)))
      else do
        let text ← plain (c :: cs.takeWhile (· != '<'))
        return text :: (← scanFrom none (cs.drop (cs.takeWhile (· != '<')).length))
termination_by cs.length
decreasing_by
  all_goals simp only [List.length_cons, List.length_drop]
  all_goals omega

def scan (text : String) : Except Fault (List Event) :=
  scanFrom none text.toList

end PageForms.Scanner
