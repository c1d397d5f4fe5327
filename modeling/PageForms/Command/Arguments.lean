import PageForms.Command.Help
import PageForms.Datum.Layout
import PageForms.Decimal.Binary64
import PageForms.Fault
import PageForms.Files.Path

/-!
# Command-line arguments

The options that concern the program stand before the command, those of the command anywhere among
its arguments. An option that takes a value has it behind an equals sign or as the next argument.
A long option may be cut short as long as only one fits, and one-letter options may share a dash.
Behind `--` there are no options, and a negative number is none either.
-/

namespace PageForms

/-- A command with its arguments. -/
inductive Command where
  | compile (path : Path) (out : Option Path) (jsUri baseUri : Option String) (width : Option Int)
  | forms (path : Path) (width : Int)
deriving DecidableEq, Repr

/-- What a command line asks for. -/
inductive Request where
  | run (verbose : Bool) (command : Command)
  | version
  | help (topic : HelpTopic)
  /-- The arguments make no sense. -/
  | misuse
deriving DecidableEq, Repr

namespace Arguments

/-- The options. -/
inductive Flag where
  | help
  | version
  | verbose
  | out
  | jsUri
  | baseUri
  | width
deriving DecidableEq, Repr

namespace Flag

def letter? : Flag → Option Char
  | help => some 'h'
  | verbose => some 'v'
  | _ => none

def longName : Flag → String
  | help => "--help"
  | version => "--version"
  | verbose => "--verbose"
  | out => "--out"
  | jsUri => "--js-uri"
  | baseUri => "--base-uri"
  | width => "--width"

def takesValue : Flag → Bool
  | help | version | verbose => false
  | out | jsUri | baseUri | width => true

def ofProgram : List Flag := [help, version, verbose]

def ofCompile : List Flag := [help, out, jsUri, baseUri, width]

def ofForms : List Flag := [help, width]

end Flag

/-- What an argument is. -/
inductive Word where
  | value (text : String)
  /-- `--`, behind which there are no options. -/
  | separator
  /-- An option by its long name, with the value in the same argument. -/
  | long (flag : Flag) (value : Option String)
  /-- Letters of options behind one dash. -/
  | letters (flag : Flag) (more : List Char)
  | unknown
deriving DecidableEq, Repr

def allDigits (cs : List Char) : Bool :=
  !cs.isEmpty && cs.all fun c => (Text.digitValue? c).isSome

def isNegativeNumber (cs : List Char) : Bool :=
  let cs := if cs.getLast? = some '\n' then cs.dropLast else cs
  match cs with
  | '-' :: rest =>
    let whole := rest.takeWhile (· != '.')
    match rest.dropWhile (· != '.') with
    | [] => allDigits whole
    | _ :: fraction => (whole.isEmpty || allDigits whole) && allDigits fraction
  | _ => false

def splitValue (cs : List Char) : List Char × Option String :=
  match cs.dropWhile (· != '=') with
  | [] => (cs, none)
  | _ :: value => (cs.takeWhile (· != '='), some (String.ofList value))

/-- The option that a long name stands for: the one with that name, or else the ones whose name
starts with it. -/
def longFlags (flags : List Flag) (name : List Char) : List Flag :=
  match flags.find? fun f => f.longName.toList == name with
  | some f => [f]
  | none => flags.filter fun f => name.isPrefixOf f.longName.toList

def unknownWord (arg : String) : Word :=
  if isNegativeNumber arg.toList || arg.toList.contains ' ' then .value arg else .unknown

/-- What an argument is; nothing if it may be several options. -/
def classify? (flags : List Flag) (arg : String) : Option Word :=
  match arg.toList with
  | '-' :: '-' :: _ =>
    let (name, value) := splitValue arg.toList
    match longFlags flags name with
    | [] => some (unknownWord arg)
    | [f] => some (.long f value)
    | _ => none
  | '-' :: c :: more =>
    match flags.find? fun f => f.letter? == some c with
    | some f => some (.letters f more)
    | none => some (unknownWord arg)
  | _ => some (.value arg)

def classifyAll? (flags : List Flag) : List String → Option (List Word)
  | [] => some []
  | arg :: args =>
    if arg = "--" then some (.separator :: args.map .value)
    else do return (← classify? flags arg) :: (← classifyAll? flags args)

/-- The options that letters behind one dash stand for. An equals sign may stand behind the first
letter. -/
def lettersOf (flags : List Flag) (first : Flag) (more : List Char) : Except Request (List Flag) :=
  let more? := match more with
    | '=' :: [] => none
    | '=' :: rest => some rest
    | rest => some rest
  match more?.bind fun cs => cs.mapM fun c => flags.find? fun f => f.letter? == some c with
  | some fs => .ok (first :: fs)
  | none => .error .misuse

/-! ## The arguments of a command -/

/-- An integer: a sign and digits with single underscores between them, white space around. -/
def int? (s : String) : Option Int :=
  let (negative, cs) := Binary64.takeSign (Text.strip s.toList)
  match Text.takeGroupedDigits Text.digitValue? cs with
  | (d :: ds, []) =>
    if digitLimit < (d :: ds).length then none
    else
      let n : Int := Text.ofDigits 10 (d :: ds)
      some (if negative then -n else n)
  | _ => none

/-- What has been found among the arguments of a command. -/
structure Found where
  /-- The values of options, the last one first. -/
  values : List (Flag × String)
  path : Option String
  /-- The path was the last thing found. -/
  pathIsLast : Bool
  /-- Something was found that has no place. -/
  surplus : Bool
deriving DecidableEq, Repr

namespace Found

def initial : Found := { values := [], path := none, pathIsLast := false, surplus := false }

def value? (found : Found) (flag : Flag) : Option String :=
  (found.values.find? fun entry => entry.1 == flag).map Prod.snd

def width? (found : Found) : Option Int :=
  (found.value? .width).bind int?

def addSurplus (found : Found) : Found :=
  { found with surplus := true, pathIsLast := false }

def addPlain (found : Found) (text : String) : Found :=
  if found.path.isNone then { found with path := some text, pathIsLast := true }
  else found.addSurplus

/-- Adds `--`, which belongs to a path next to it. -/
def addSeparator (found : Found) : Found :=
  if found.path.isNone || found.pathIsLast then found else found.addSurplus

/-- Adds the value of an option. A right margin has to be an integer. -/
def addValue (found : Found) (flag : Flag) (value : String) : Except Request Found :=
  if flag = .width && (int? value).isNone then .error .misuse
  else .ok { found with values := (flag, value) :: found.values, pathIsLast := false }

end Found

def readWords (topic : HelpTopic) (flags : List Flag) (found : Found) :
    List Word → Except Request Found
  | [] => .ok found
  | .value text :: rest => readWords topic flags (found.addPlain text) rest
  | .separator :: rest => readWords topic flags found.addSeparator rest
  | .unknown :: rest => readWords topic flags found.addSurplus rest
  | .long f (some value) :: rest =>
    if f.takesValue then do readWords topic flags (← found.addValue f value) rest
    else .error .misuse
  | .long f none :: rest =>
    if f.takesValue then
      match rest with
      | .value text :: rest => do readWords topic flags (← found.addValue f text) rest
      | _ => .error .misuse
    else .error (.help topic)
  | .letters f more :: _ => do
    let _ ← lettersOf flags f more
    throw (.help topic)

def readArguments (topic : HelpTopic) (flags : List Flag) (args : List String) :
    Except Request (Path × Found) :=
  match classifyAll? flags args with
  | none => .error .misuse
  | some words => do
    let found ← readWords topic flags .initial words
    match found.path with
    | none => throw .misuse
    | some path => return (Path.ofText path, found)

/-- The command with a name and arguments, and whether something among them has no place. -/
def readCommand (name : String) (args : List String) : Except Request (Command × Bool) :=
  match name with
  | "compile" => do
    let (path, found) ← readArguments .compile Flag.ofCompile args
    let command := Command.compile path ((found.value? .out).map Path.ofText)
      (found.value? .jsUri) (found.value? .baseUri) found.width?
    return (command, found.surplus)
  | "forms" => do
    let (path, found) ← readArguments .forms Flag.ofForms args
    return (.forms path (found.width?.getD Datum.defaultWidth), found.surplus)
  | _ => .error .misuse

/-! ## The whole command line -/

def readLine (verbose surplus : Bool) : List (Word × String) → Except Request Request
  | [] => .error .misuse
  | (.value name, _) :: rest => do
    let (command, more) ← readCommand name (rest.map Prod.snd)
    return if surplus || more then .misuse else .run verbose command
  | (.separator, _) :: _ => .error .misuse
  | (.unknown, _) :: rest => readLine verbose true rest
  | (.long .verbose none, _) :: rest => readLine true surplus rest
  | (.long .version none, _) :: _ => .error .version
  | (.long .help none, _) :: _ => .error (.help .program)
  | (.long _ _, _) :: _ => .error .misuse
  | (.letters f more, _) :: rest => do
    if (← lettersOf Flag.ofProgram f more).contains .help then throw (.help .program)
    readLine true surplus rest

def read (args : List String) : Request :=
  match classifyAll? Flag.ofProgram args with
  | none => .misuse
  | some words =>
    match readLine false false (words.zip args) with
    | .ok request | .error request => request

end Arguments

end PageForms
