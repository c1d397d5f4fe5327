import PageForms.Console.Basic
import PageForms.Files.Tree
import PageForms.Text.Quoted

/-!
# Steps of a run and what they rely on

Texts are encoded and messages shown by parts that are not modelled here, the codec of the file
system and the console, and either may refuse what it is given. Only this is assumed of them: a text
that is not refused is written in UTF-8, one that is refused leaves the opened file empty, and a
refused message ends the run.
-/

namespace PageForms

/-- The codec and the console of a run, each by what it does not refuse. -/
structure Host where
  encodes : String → Bool
  shows : ConsoleEvent → Bool

/-- What a step leaves: the tree, what it showed, and its result or the fault that ended it. -/
structure Step (α : Type) where
  tree : FileTree
  events : List ConsoleEvent
  result : Except Fault α

namespace Step

def quiet {α : Type} (t : FileTree) (result : Except Fault α) : Step α :=
  { tree := t, events := [], result }

/-- Goes on after a step, however it ended. -/
def next {α β : Type} (x : Step α) (f : FileTree → Except Fault α → Step β) : Step β :=
  let y := f x.tree x.result
  { y with events := x.events ++ y.events }

def andThen {α β : Type} (x : Step α) (f : FileTree → α → Step β) : Step β :=
  x.next fun t result =>
    match result with
    | .error e => quiet t (.error e)
    | .ok a => f t a

end Step

namespace Host

def ideal : Host :=
  { encodes := fun _ => true, shows := fun _ => true }

/-- The host that refuses only what no codec can encode. -/
def strict : Host :=
  { ideal with encodes := fun text => !text.toList.any Text.isSurrogate }

def showingAll (host : Host) : Host :=
  { host with shows := fun _ => true }

/-- What writing a text leaves in its file. -/
def bytes (host : Host) (text : String) : ByteArray :=
  if host.encodes text then text.toUTF8 else .empty

/-- Writes a text to a file, which is emptied before the text is encoded. -/
def writeText (host : Host) (t : FileTree) (p : Path) (text : String) :
    FileTree × Except Fault Unit :=
  match t.write p (host.bytes text) with
  | .error e => (t, .error e)
  | .ok t => (t, if host.encodes text then .ok () else .error .unencodable)

/-- Shows events in turn and gives a result, unless the console refuses one of them. -/
def say {α : Type} (host : Host) (t : FileTree) (events : List ConsoleEvent) (a : α) : Step α :=
  { tree := t
    events := events.takeWhile host.shows
    result := if events.all host.shows then .ok a else .error .unshowable }

end Host

end PageForms
