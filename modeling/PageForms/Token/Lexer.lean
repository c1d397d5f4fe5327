import PageForms.Fault
import PageForms.Text.Blank
import PageForms.Token.Basic

/-!
# Splitting text into tokens

White space, commas and comments separate tokens. What stands at the front of a text is decided by
its first characters, and an atom or a metadata mark reaches as far as it can.
`lexeme?` tells what stands at the front and how many further characters belong to it, so that a
text is always cut into the pieces it consists of.
-/

namespace PageForms.Token

def isSeparator (c : Char) : Bool :=
  Text.isBlank c || c == ','

def isDelimiter (c : Char) : Bool :=
  isSeparator c ||
    ['(', ')', '[', ']', '{', '}', '\x22', '@', '^', '\x60', '~', '\\', ';'].contains c

def isAtomChar (c : Char) : Bool :=
  !isDelimiter c

def isAtomStart (c : Char) : Bool :=
  isAtomChar c && c != '\x27' && c != '#'

/-- The number of characters up to and including the quote that closes a string. A backslash takes
the next character with it. -/
def closingQuote? : List Char → Option Nat
  | [] => none
  | '\x22' :: _ => some 1
  | '\\' :: _ :: cs => (closingQuote? cs).map (· + 2)
  | _ :: cs => (closingQuote? cs).map (· + 1)

def characterNames : List String :=
  ["newline", "space", "tab", "return", "backspace", "formfeed"]

/-- The length of what follows the backslash of a character literal: a name, `u` with four
hexadecimal digits, or any one character. -/
def characterLength? (cs : List Char) : Option Nat :=
  match characterNames.find? (fun name => name.toList.isPrefixOf cs) with
  | some name => some name.length
  | none =>
    match cs with
    | [] => none
    | 'u' :: rest =>
      if 4 ≤ rest.length && (rest.take 4).all (fun c => (Text.hexValue? c).isSome) then some 5
      else some 1
    | _ => some 1

/-- What stands at the front of a text with first character `c`: a token of some kind, or nothing
but separators or a comment; and how many characters after the first belong to it. -/
def lexeme? (c : Char) (cs : List Char) : Option (Option TokenKind × Nat) :=
  if isSeparator c then some (none, (cs.takeWhile isSeparator).length)
  else
    match c with
    | ';' => some (none, (cs.takeWhile (· != '\n')).length)
    | '\x22' => (closingQuote? cs).map (some .string, ·)
    | '#' =>
      match cs with
      | '\x22' :: rest => (closingQuote? rest).map fun n => (some .regex, n + 1)
      | '{' :: _ => some (some .openSet, 1)
      | '(' :: _ => some (some .openFn, 1)
      | '_' :: _ => some (some .discard, 1)
      | '\x27' :: _ => some (some .varQuote, 1)
      | _ => none
    | '^' =>
      let n := (cs.takeWhile isAtomChar).length
      if n = 0 then none else some (some .metadata, n)
    | '\\' => (characterLength? cs).map (some .character, ·)
    | '(' => some (some .openParen, 0)
    | ')' => some (some .closeParen, 0)
    | '[' => some (some .openBracket, 0)
    | ']' => some (some .closeBracket, 0)
    | '{' => some (some .openBrace, 0)
    | '}' => some (some .closeBrace, 0)
    | '\x27' => some (some .quote, 0)
    | '@' => some (some .deref, 0)
    | _ => if isAtomStart c then some (some .atom, (cs.takeWhile isAtomChar).length) else none

def lexAt (place : Text.Position) (cs : List Char) : Except Fault (List Token) :=
  match cs with
  | [] => .ok []
  | c :: rest =>
    match lexeme? c rest with
    | none => .error (.illegalCharacter place (String.ofList ((c :: rest).take 10)))
    | some (kind?, n) =>
      let text := c :: rest.take n
      match lexAt (place.advance text) (rest.drop n) with
      | .error e => .error e
      | .ok tokens =>
        match kind? with
        | none => .ok tokens
        | some kind => .ok (⟨kind, String.ofList text, place⟩ :: tokens)
termination_by cs.length
decreasing_by
  simp only [List.length_cons, List.length_drop]
  omega

def lex (text : String) : Except Fault (List Token) :=
  lexAt .start text.toList

end PageForms.Token
