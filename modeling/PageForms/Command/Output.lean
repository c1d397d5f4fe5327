import PageForms.Command.Host
import PageForms.Page.Source
import PageForms.Settings.Field

/-!
# Results as files

The two texts of a compiled page are written next to each other, under the name of their source
without its ending.
-/

namespace PageForms

/-- The files that the results of one source go to. -/
structure OutputFiles where
  markup : Path
  code : Path
deriving DecidableEq, Repr

namespace OutputFiles

def inDirectory (directory : Path) (stem : String) : OutputFiles :=
  { markup := directory.child (stem ++ ".html"), code := directory.child (stem ++ ".cljs") }

/-- The files for a source at `relative`, seen from the directory of all sources. -/
def ofSource (outDir relative : Path) : OutputFiles :=
  inDirectory (outDir.join relative.parent) relative.stem

def includes (files : OutputFiles) (cwd : Place) (p : Path) : Except Fault Bool := do
  let place ← p.place? cwd
  let markup ← files.markup.place? cwd
  let code ← files.code.place? cwd
  return markup == place || code == place

end OutputFiles

namespace Bundle

def requiredText (fields : Named FieldValue) (name : String) : Except FieldFault String :=
  match Named.find? fields name with
  | none => .error .missing
  | some v => v.text?

def ofFields (fields : Named FieldValue) : Except Fault Bundle :=
  match requiredText fields "markup", requiredText fields "code" with
  | .ok markup, .ok code => .ok { markup, code }
  | markup, code =>
    .error (.refusedFields (FieldFault.ofCheck "markup" markup ++ FieldFault.ofCheck "code" code))

/-- Writes the markup and then the code. What has been written before a failure stays. -/
def writeFiles (host : Host) (b : Bundle) (files : OutputFiles) (t : FileTree) :
    FileTree × Except Fault Unit :=
  match host.writeText t files.markup b.markup with
  | (t, .error e) => (t, .error e)
  | (t, .ok ()) => host.writeText t files.code b.code

def writeOn (host : Host) (b : Bundle) (directory : Path) (stem : String) (t : FileTree) :
    FileTree × Except Fault OutputFiles :=
  let files := OutputFiles.inDirectory directory stem
  match t.createDirectory directory with
  | (t, .error e) => (t, .error e)
  | (t, .ok ()) =>
    match writeFiles host b files t with
    | (t, .error e) => (t, .error e)
    | (t, .ok ()) => (t, .ok files)

def write (b : Bundle) (directory : Path) (stem : String) (t : FileTree) :
    FileTree × Except Fault OutputFiles :=
  writeOn .ideal b directory stem t

end Bundle

/-- Compiles the source in a file. A file of an unknown kind is not read and gives nothing. -/
def Page.compileFile (t : FileTree) (name : String) (options : CompileOptions) :
    Except Fault (Option Bundle) :=
  match SourceKind.ofName? name with
  | none => .ok none
  | some kind => do
    return some (← compileSource kind (← t.readText (Path.ofText name)) options)

end PageForms
