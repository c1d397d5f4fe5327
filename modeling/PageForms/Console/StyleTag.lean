/-!
# Style tags in messages

Messages may hold style tags: an opening bracket, then a lower-case letter or one of `#`, `/` and
`@`, and anything but an opening bracket up to the closing one. A text that is to be shown as it is
gets a backslash before each of them.

What counts as a tag, and how one is escaped, is for the library behind the console to say. It is
assumed to go by the rules written out here. Whether it shows a message at all is left open (see
`Host.shows`).
-/

namespace PageForms.StyleTag

def isTag : List Char → Bool
  | [] => false
  | c :: cs =>
    (('a' ≤ c && c ≤ 'z') || c == '#' || c == '/' || c == '@') &&
      (cs.dropWhile fun d => d != ']' && d != '[').head? == some ']'

/-- The text with its tags escaped. `slashes` are the backslashes right before it, which are doubled
before a tag. -/
def escapeFrom (slashes : List Char) : List Char → List Char
  | [] => slashes
  | '\\' :: cs => escapeFrom ('\\' :: slashes) cs
  | '[' :: cs =>
    if isTag cs then slashes ++ slashes ++ '\\' :: '[' :: escapeFrom [] cs
    else slashes ++ '[' :: escapeFrom [] cs
  | c :: cs => slashes ++ c :: escapeFrom [] cs

def closeSlash (cs : List Char) : List Char :=
  match cs.reverse with
  | ['\\'] => cs ++ ['\\']
  | '\\' :: c :: _ => if c = '\\' then cs else cs ++ ['\\']
  | _ => cs

def escape (s : String) : String :=
  String.ofList (closeSlash (escapeFrom [] s.toList))

/-- The text without its tags, where an escaped tag loses one backslash. `inTag` says that the text
starts inside a tag. -/
def plainFrom (inTag : Bool) : List Char → List Char
  | [] => []
  | '\\' :: '[' :: cs =>
    if isTag cs then '[' :: plainFrom false cs
    else '\\' :: '[' :: plainFrom false cs
  | '[' :: cs => if isTag cs then plainFrom true cs else '[' :: plainFrom false cs
  | c :: cs =>
    if inTag then plainFrom (c != ']') cs else c :: plainFrom false cs

def plain (s : String) : String :=
  String.ofList (plainFrom false s.toList)

end PageForms.StyleTag
