import PageForms.Text.Join

/-!
# The console

Log records and printed pieces as events. A record carries a numeric level; the levels that have a
name are shown by it. The active console takes the records of this program's loggers from a least
level on.
-/

namespace PageForms

/-- The levels that messages of this program are logged at. -/
inductive LogLevel where
  | debug
  | info
  | success
  | warning
  | error
deriving DecidableEq, Repr

namespace LogLevel

def number : LogLevel → Int
  | .debug => 10
  | .info => 20
  | .success => 25
  | .warning => 30
  | .error => 40

def names : List (Int × String) :=
  [(0, "NOTSET"), (10, "DEBUG"), (20, "INFO"), (25, "SUCCESS"), (30, "WARNING"), (40, "ERROR"),
   (50, "CRITICAL")]

def nameOf (n : Int) : String :=
  match names.find? (fun entry => entry.1 == n) with
  | some entry => entry.2
  | none => s!"Level {n}"

def name (level : LogLevel) : String :=
  nameOf level.number

def mark : LogLevel → String
  | .debug => ""
  | .info => "ℹ️  "
  | .success => "✅ "
  | .warning => "⚠️  "
  | .error => "❌ "

end LogLevel

/-- Something that happens on a console. -/
inductive ConsoleEvent where
  | log (level : String) (message : String)
  | print (text : String)
  /-- Source text in a language. -/
  | code (language : String) (text : String)
  | table (title : String) (headers : List String) (rows : List (List String))
deriving DecidableEq, Repr

namespace ConsoleEvent

def message (level : LogLevel) (text : String) : ConsoleEvent :=
  .log level.name (level.mark ++ text)

/-- The event is shown only when details are asked for. -/
def isDetail : ConsoleEvent → Bool
  | .log level _ => level == LogLevel.debug.name
  | _ => false

end ConsoleEvent

/-- The active console, its width, and the least level it shows. -/
structure Console where
  active : String
  width : Nat
  level : Int
deriving DecidableEq, Repr

namespace Console

def loggerName : String := "hlisp"

def recordingWidth : Nat := 200

def initial : Console :=
  { active := "default", width := 80, level := LogLevel.info.number }

def activate (c : Console) (name : String) : Console :=
  { c with active := name, width := recordingWidth }

/-- Goes back to the first console. The level stays. -/
def reset (c : Console) : Console :=
  { initial with level := c.level }

def setVerbose (c : Console) (verbose : Bool) : Console :=
  { c with level := (if verbose then LogLevel.debug else LogLevel.info).number }

def owns (logger : String) : Bool :=
  logger == loggerName || Text.startsWith (loggerName ++ ".") logger

def record (c : Console) (logger : String) (level : Int) (message : String) : List ConsoleEvent :=
  if owns logger && c.level ≤ level then [.log (LogLevel.nameOf level) message] else []

def log (c : Console) (level : LogLevel) (message : String) : List ConsoleEvent :=
  c.record loggerName level.number (level.mark ++ message)

end Console

end PageForms
