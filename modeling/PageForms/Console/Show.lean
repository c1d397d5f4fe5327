import PageForms.Console.Basic
import PageForms.Console.StyleTag

/-!
# Events as text

What a console without styles shows of an event.
-/

namespace PageForms.ConsoleEvent

def rowText (cells : List String) : String :=
  Text.joinWith "  " (cells.map StyleTag.plain)

def text : ConsoleEvent → String
  | .log level message => level ++ " " ++ StyleTag.plain message
  | .print text => StyleTag.plain text
  | .code _ text => text
  | .table title headers rows =>
    Text.joinWith "\n" (title :: rowText headers :: rows.map rowText)

end PageForms.ConsoleEvent
