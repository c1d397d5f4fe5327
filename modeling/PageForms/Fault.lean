import PageForms.Text.Position
import PageForms.Text.Digit

/-!
# Causes of failure

Everything that can go wrong, each cause a constructor with what is known about it, and the wording
of each in `Fault.message`.
-/

namespace PageForms

open Text (Position)

/-- The most digits an integer may have when it is read or written in decimal. -/
def digitLimit : Nat := 4300

/-- What is wrong with one field of a record. -/
inductive FieldFault where
  | missing
  | notText
  | notPath
  | notInteger
  | notIntegerText
  | fractional
  | notFinite
  | tooLarge
  | tooNarrow (width : Int)
deriving DecidableEq, Repr

/-- Why an operation failed. -/
inductive Fault where
  /-- No token starts here. -/
  | illegalCharacter (place : Position) (snippet : String)
  /-- The text ends where a datum is due. -/
  | unexpectedEnd
  /-- The text ends inside a bracketed group. -/
  | unclosed (opener : String) (place : Position)
  /-- A closing bracket stands where a datum is due, or closes another kind of group. -/
  | unexpectedToken (text : String) (place : Position)
  | oddMap (place : Position)
  | unusableKey (place : Position) (key : String)
  | duplicateKey (place : Position) (key : String)
  /-- A text that should hold one datum holds another number of them. -/
  | formCount (count : Nat)
  /-- A string has `\u` without four hexadecimal digits. -/
  | emptyEscape
  /-- A decimal integer is too long to be read. -/
  | tooManyDigits (count : Nat)
  /-- An integer is too long to be written. -/
  | unwritableInteger
  | zeroStep
  /-- An integer is too large to be added to a float. -/
  | tooLargeForFloat
  /-- A declaration of an unknown kind opens in markup. -/
  | unknownDeclaration
  /-- A node without a markup of its own was to be rendered. -/
  | unrenderable
  /-- A value is of the wrong kind for what is done with it. -/
  | wrongKind
  | outOfRange
  | noSuchKey
  /-- A value was asked for something that its kind does not have. -/
  | noSuchMember
  /-- No form with this head was found. -/
  | noneFound (head : String) (place : String)
  /-- More than one form with this head was found. -/
  | manyFound (head : String) (place : String) (count : Nat)
  | bodyWithoutNamespace
  /-- A namespace declaration was expected; the text starts what was found. -/
  | notNamespace (text : String)
  | notMarkupOrNamespace
  | lastNotMarkup
  | fileNotFound
  | isDirectory
  | notDirectory
  | fileExists
  /-- A path has a name with a null character in it. -/
  | nullInPath
  /-- Bytes are no UTF-8; the detail says where and why. -/
  | undecodable (detail : String)
  /-- A text was to be written that has no encoding. -/
  | unencodable
  /-- The console cannot show a message. -/
  | unshowable
  /-- A settings file could not be parsed. -/
  | malformedSettings (path : String)
  /-- Fields of a record were refused. -/
  | refusedFields (faults : List (String × FieldFault))
deriving DecidableEq, Repr

namespace Fault

def message : Fault → String
  | illegalCharacter p snippet => s!"Illegal character at {p.describe}: '{snippet}...'"
  | unexpectedEnd => "Unexpected End of File."
  | unclosed opener p => s!"Unexpected EOF: '{opener}' opened at {p.describe} is never closed"
  | unexpectedToken text p => s!"Unexpected token '{text}' at {p.describe}"
  | oddMap p => s!"Map literal at {p.describe} has an odd number of forms"
  | unusableKey p key => s!"Map literal at {p.describe} has a key that cannot be a map key: {key}"
  | duplicateKey p key => s!"Map literal at {p.describe} has a duplicate key: {key}"
  | formCount n => s!"Expected exactly one form, found {n}"
  | emptyEscape => "invalid literal for int() with base 16: ''"
  | tooManyDigits n =>
    s!"Exceeds the limit ({digitLimit} digits) for integer string conversion: value has {n} digits; use sys.set_int_max_str_digits() to increase the limit"
  | unwritableInteger =>
    s!"Exceeds the limit ({digitLimit} digits) for integer string conversion; use sys.set_int_max_str_digits() to increase the limit"
  | zeroStep => "slice step cannot be zero"
  | tooLargeForFloat => "int too large to convert to float"
  | unknownDeclaration => "unknown declaration"
  | unrenderable => "a bare node has no markup"
  | wrongKind => "a value of the wrong kind"
  | outOfRange => "index out of range"
  | noSuchKey => "no such key"
  | noSuchMember => "the value lacks what was asked of it"
  | noneFound head place => s!"No <{head}> node found in {place}."
  | manyFound head place n => s!"Expected exactly one <{head}> node in {place}, found {n}."
  | bodyWithoutNamespace => "The first form in <body> must be a namespace declaration."
  | notNamespace text => s!"Expected a namespace declaration, got: {text}"
  | notMarkupOrNamespace => "First form is not markup or namespace declaration."
  | lastNotMarkup => "The last form of a namespace source must be the (html ...) document."
  | fileNotFound => "no such file or directory"
  | isDirectory => "is a directory"
  | notDirectory => "not a directory"
  | fileExists => "file exists"
  | nullInPath => "embedded null byte"
  | undecodable detail => detail
  | unencodable => "a text without an encoding"
  | unshowable => "a message that cannot be shown"
  | malformedSettings path => s!"Invalid TOML in {path}"
  | refusedFields _ => "refused fields"

/-- The text that was read breaks the notation. -/
def isNotation : Fault → Bool
  | illegalCharacter .. | unexpectedEnd | unclosed .. | unexpectedToken .. | oddMap ..
  | unusableKey .. | duplicateKey .. | formCount .. => true
  | _ => false

/-- What was given is of the right kind and has a value that cannot be accepted. -/
def isRefusal : Fault → Bool
  | emptyEscape | tooManyDigits .. | unwritableInteger | zeroStep | noneFound .. | manyFound ..
  | bodyWithoutNamespace | notNamespace .. | notMarkupOrNamespace | lastNotMarkup
  | nullInPath | undecodable .. | unencodable | malformedSettings .. | refusedFields .. => true
  | _ => false

/-- The directory tree does not allow what was asked. -/
def isFileAccess : Fault → Bool
  | fileNotFound | isDirectory | notDirectory | fileExists => true
  | _ => false

end Fault

end PageForms
