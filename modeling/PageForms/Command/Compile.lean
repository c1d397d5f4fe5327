import PageForms.Command.Output
import PageForms.Console.Basic
import PageForms.Console.StyleTag
import PageForms.Settings.Basic

/-!
# Compiling files

The sources are one file, or all pages below a directory. Each is compiled for itself: a source
that cannot be read or compiled is reported and the others go on. The results are written next to
each other into the output directory, below it at the place that the source has below its
directory, or shown if there is no output directory. A source is never written over by its own
results.
-/

namespace PageForms

/-- How compiling one source ended. -/
inductive Status where
  | ok
  | skipped
  | error
deriving DecidableEq, Repr

namespace Status

def text : Status → String
  | ok => "[green]ok[/green]"
  | skipped => "[yellow]skipped[/yellow]"
  | error => "[red]error[/red]"

end Status

namespace Compilation

def planEvents (plan : Page.Plan) : List ConsoleEvent :=
  [.message .debug s!"Merged runtime imports into namespace {plan.name}.",
   .message .debug s!"Compiling namespace {plan.name} with {plan.content.length} page forms."]

/-- Compiles the source at a path. A source of an unknown kind gives nothing. -/
def compileSource (host : Host) (t : FileTree) (options : CompileOptions) (source : Path) :
    Step (Option Bundle) :=
  match SourceKind.ofName? source.text with
  | none => host.say t [.message .debug s!"No compiler registered for {source.text}"] none
  | some kind =>
    match t.readText source >>= Page.planSource kind with
    | .error e => .quiet t (.error e)
    | .ok plan =>
      (host.say t (planEvents plan) ()).andThen fun t _ => .quiet t (some <$> plan.render options)

def showBundle (source : Path) (b : Bundle) : List ConsoleEvent :=
  [.print s!"[bold]{source.stem}.html[/bold]", .code "html" b.markup,
   .print s!"[bold]{source.stem}.cljs[/bold]", .code "clojure" b.code]

/-- Writes the results of a source, unless one of them would go to the source itself. -/
def deliver (host : Host) (t : FileTree) (outDir source relative : Path) (b : Bundle) :
    Step Status :=
  match (OutputFiles.ofSource outDir relative).includes t.cwd source with
  | .error e => .quiet t (.error e)
  | .ok true =>
    host.say t [.message .error
      s!"Refusing to overwrite source file {source.text}; choose another --out directory."] .error
  | .ok false =>
    match b.writeOn host (outDir.join relative.parent) relative.stem t with
    | (t, .error e) => .quiet t (.error e)
    | (t, .ok files) =>
      host.say t [.message .success
        s!"Wrote [path]{files.markup.text}[/path] and [path]{files.code.text}[/path]"] .ok

/-- The fault is reported as one of the source, and does not end the run. -/
def isReported (e : Fault) : Bool :=
  e.isNotation || e.isRefusal || e.isFileAccess

def report (source : Path) (e : Fault) : ConsoleEvent :=
  .message .error s!"{source.text}: {StyleTag.escape e.message}"

def conclude (host : Host) (settings : Settings) (source relative : Path) (t : FileTree) :
    Except Fault (Option Bundle) → Step Status
  | .error e =>
    if isReported e then host.say t [report source e] .error else .quiet t (.error e)
  | .ok none => host.say t [.message .warning s!"Unsupported file type: {source.text}"] .skipped
  | .ok (some b) =>
    match settings.outDir with
    | none => host.say t (showBundle source b) .ok
    | some outDir => deliver host t outDir source relative b

def processSource (host : Host) (t : FileTree) (settings : Settings) (source relative : Path) :
    Step Status :=
  (compileSource host t settings.options source).next (conclude host settings source relative)

/-- Processes sources one after the other. A fault that is not reported ends the run. -/
def processAll (host : Host) (t : FileTree) (settings : Settings) (root : Path) :
    List Path → Step (List (Path × Status))
  | [] => .quiet t (.ok [])
  | source :: sources =>
    (processSource host t settings source (source.relativeTo root)).andThen fun t status =>
      (processAll host t settings root sources).andThen fun t results =>
        .quiet t (.ok ((source.relativeTo root, status) :: results))

def sourcesBelow (t : FileTree) (directory : Path) : List Path :=
  ((t.filesBelow directory).filter fun p => (SourceKind.ofName? p.text).isSome).mergeSort
    fun p q => Path.partsBefore p.parts q.parts

def summary (results : List (Path × Status)) : ConsoleEvent :=
  let rows := (results.map fun (relative, status) => (relative.text, status.text)).mergeSort
    fun r s => decide (r.1 ≤ s.1)
  .table "Compilation Summary" ["Source", "Status"] (rows.map fun (name, status) => [name, status])

def sumUp (host : Host) (t : FileTree) (results : List (Path × Status)) : Step Nat :=
  host.say t (if 1 < results.length then [summary results] else [])
    (if results.all fun (_, status) => status == .ok then 0 else 1)

def processBatch (host : Host) (t : FileTree) (settings : Settings) (root : Path)
    (sources : List Path) : Step Nat :=
  (processAll host t settings root sources).andThen (sumUp host)

def announcement (directory : Path) (sources : List Path) : ConsoleEvent :=
  .message .info s!"Compiling {sources.length} files from [path]{directory.text}[/path]..."

def runWith (host : Host) (t : FileTree) (settings : Settings) (path : Path) : Step Nat :=
  if t.isFile path then processBatch host t settings path.parent [path]
  else
    match sourcesBelow t path with
    | [] => host.say t [.message .warning s!"No .html or .cljs files found in {path.text}"] 0
    | sources =>
      (host.say t [announcement path sources] ()).andThen fun t _ =>
        processBatch host t settings path sources

def run (host : Host) (t : FileTree) (overrides : Settings.Overrides) (path : Path) : Step Nat :=
  if t.exists? path then
    match Settings.load t overrides (if t.isDirectory path then path else path.parent) with
    | .ok settings => runWith host t settings path
    | .error e =>
      if e.isRefusal then host.say t [.message .error "Invalid configuration"] 1
      else .quiet t (.error e)
  else host.say t [.message .error s!"Input not found: {path.text}"] 1

end Compilation

end PageForms
