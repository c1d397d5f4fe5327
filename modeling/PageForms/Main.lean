import PageForms.Command.Program
import PageForms.Console.Show

/-!
# The command line

Copies what a command needs of the directory tree into memory, runs the program on it, shows what
it showed, and writes the files that it changed.
-/

namespace PageForms.Main

/-- Adds what is at a place on the disk: a file, or a directory with all that is below it. -/
partial def addPlace (t : FileTree) (text : String) : IO FileTree := do
  let place := (← IO.currentDir) / text
  if ← place.isDir then
    let mut t := t.addDirectory (Path.ofText text)
    for entry in ← place.readDir do
      t ← addPlace t (text ++ "/" ++ entry.fileName)
    return t
  else if ← place.pathExists then
    return t.addFile (Path.ofText text) (← IO.FS.readBinFile place)
  else return t

def addSettings (t : FileTree) (place : Place) : IO FileTree :=
  (Settings.upwards place).foldlM
    (fun t dir => addPlace t (Path.ofPlace (dir ++ [Settings.fileName])).text) t

/-- The tree that a command works on, as far as it concerns the command. -/
def treeFor (cwd : Place) : Command → IO FileTree
  | .compile path outDir jsUri baseUri lineWidth => do
    let t ← addPlace (FileTree.empty cwd) path.text
    let t ← addSettings t (path.resolve cwd)
    let search := if t.isDirectory path then path else path.parent
    match Settings.load t { jsUri, baseUri, outDir, lineWidth } search with
    | .ok { outDir := some directory, .. } => addPlace t directory.text
    | _ => return t
  | .forms path _ => addPlace (FileTree.empty cwd) path.text

def store (before after : FileTree) : IO Unit := do
  for directory in after.directories do
    if !before.isDirectoryAt directory then
      IO.FS.createDirAll (Path.ofPlace directory).text
  for (place, bytes) in after.changesSince before do
    IO.FS.writeBinFile (Path.ofPlace place).text bytes

def finish : Ending → IO UInt32
  | .finished code => return UInt32.ofNat code
  | .answered code text => do
    IO.print text
    if code != 0 then IO.eprint HelpTopic.program.text
    return UInt32.ofNat code
  | .failed cause => do
    IO.eprintln cause.message
    return 1

end PageForms.Main

open PageForms in
def main (args : List String) : IO UInt32 := do
  let cwd := (Path.ofText (← IO.currentDir).toString).parts
  let before ← match Arguments.read args with
    | .run _ command => Main.treeFor cwd command
    | _ => pure (FileTree.empty cwd)
  let r := Program.run before args
  for event in r.events do
    IO.println event.text
  Main.store before r.tree
  Main.finish r.ending
