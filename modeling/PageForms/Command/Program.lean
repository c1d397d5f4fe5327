import PageForms.Command.Arguments
import PageForms.Command.Listing

/-!
# The program

One run of the program on a directory tree: it reads its arguments, carries the command out, and
leaves a tree, what it showed, and how it ended.
-/

namespace PageForms

/-- How a run ended. -/
inductive Ending where
  /-- A command ended with an exit code. -/
  | finished (code : Nat)
  /-- There was no command to carry out; the text answers the request. -/
  | answered (code : Nat) (text : String)
  | failed (cause : Fault)
deriving DecidableEq, Repr

/-- What a run of the program leaves. -/
structure Run where
  tree : FileTree
  events : List ConsoleEvent
  ending : Ending

namespace Program

def name : String := "hlisp"

def version : String := "0.1.0"

def execute (host : Host) (t : FileTree) : Command → Step Nat
  | .compile path outDir jsUri baseUri lineWidth =>
    Compilation.run host t { jsUri, baseUri, outDir, lineWidth } path
  | .forms path width => Listing.run host t path width

def isWanted (verbose : Bool) (event : ConsoleEvent) : Bool :=
  verbose || !event.isDetail

/-- Runs the program. A message that is not wanted never gets to the console. -/
def runOn (host : Host) (t : FileTree) (args : List String) : Run :=
  match Arguments.read args with
  | .run verbose command =>
    let shows := fun event => !isWanted verbose event || host.shows event
    let step := execute { host with shows } t command
    { tree := step.tree
      events := step.events.filter (isWanted verbose)
      ending := match step.result with
        | .ok code => .finished code
        | .error e => .failed e }
  | .version => { tree := t, events := [], ending := .answered 0 s!"{name} {version}\n" }
  | .help topic => { tree := t, events := [], ending := .answered 0 topic.text }
  | .misuse => { tree := t, events := [], ending := .answered 2 "" }

def run (t : FileTree) (args : List String) : Run :=
  runOn .ideal t args

end Program

end PageForms
