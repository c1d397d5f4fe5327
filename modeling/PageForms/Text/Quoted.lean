import PageForms.Fault
import PageForms.Text.Digit
import PageForms.Text.Join

/-!
# Text in double quotes

`quote` writes a text between double quotes, escaping backslash, quote, line feed, tab and carriage
return. `unquote` reads what stands between the quotes: it also knows the escapes of backspace and
form feed and of a code point in four hexadecimal digits, and takes any other escaped character for
itself.
-/

namespace PageForms.Text

def quoteChar (c : Char) : List Char :=
  if c = '\\' then ['\\', '\\']
  else if c = '\x22' then ['\\', '\x22']
  else if c = '\n' then ['\\', 'n']
  else if c = '\t' then ['\\', 't']
  else if c = '\r' then ['\\', 'r']
  else [c]

def quote (s : String) : String :=
  String.ofList ('\x22' :: s.toList.flatMap quoteChar ++ ['\x22'])

def escaped (c : Char) : Char :=
  if c = 'n' then '\n'
  else if c = 't' then '\t'
  else if c = 'r' then '\r'
  else if c = 'b' then '\x08'
  else if c = 'f' then '\x0c'
  else c

/-- The character of a code point below `0x10000`. The halves of surrogate pairs are no characters;
the last 2048 code points for private use stand for them, in the same order. A text that has these
code points themselves is not told apart. -/
def ofCodePoint (n : Nat) : Char :=
  if n.isValidChar then Char.ofNat n else Char.ofNat (n + 0x102000)

/-- The character stands for half of a surrogate pair, which has no encoding. -/
def isSurrogate (c : Char) : Bool :=
  0x10f800 ≤ c.toNat

def fourHex? (a b c d : Char) : Option Nat := do
  return ofDigits 16 [← hexValue? a, ← hexValue? b, ← hexValue? c, ← hexValue? d]

def unquote : List Char → Except Fault (List Char)
  | [] => .ok []
  | '\\' :: 'u' :: a :: b :: c :: d :: rest =>
    match fourHex? a b c d with
    | some n => (ofCodePoint n :: ·) <$> unquote rest
    | none => .error .emptyEscape
  | '\\' :: 'u' :: _ => .error .emptyEscape
  | '\\' :: c :: rest => (escaped c :: ·) <$> unquote rest
  | c :: rest => (c :: ·) <$> unquote rest

end PageForms.Text
