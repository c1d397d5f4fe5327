import PageForms.Files.Tree
import PageForms.Page.Compile
import PageForms.Settings.Field
import PageForms.Settings.Toml.Document

/-!
# Settings

What a compilation needs to know beyond its source. The values come from the nearest settings file
above the sources and give way to those of the command line. They are checked field by field, and
all fields that are wrong are reported together.
-/

namespace PageForms

/-- The settings of a compilation. -/
structure Settings where
  /-- Where pages load their modules from. -/
  jsUri : String
  /-- Where pages load the base script from, if they need one. -/
  baseUri : Option String
  /-- Where the results go, if not to the console. -/
  outDir : Option Path
  /-- The right margin of modules. -/
  lineWidth : Int
  doctype : String
deriving DecidableEq, Repr

namespace Settings

def options (s : Settings) : CompileOptions :=
  { jsUri := s.jsUri
    baseUri := s.baseUri
    width := s.lineWidth
    doctype := if s.doctype.isEmpty then none else some s.doctype }

/-- Checks the values given for fields; a field without one has its default. -/
def ofFields (fields : Named FieldValue) : Except Fault Settings :=
  let given (name : String) (default : FieldValue) := (Named.find? fields name).getD default
  let jsUri := (given "js_uri" (.str "main.js")).text?
  let baseUri := (given "base_uri" .null).optionalText?
  let outDir := (given "out_dir" .null).optionalPath?
  let lineWidth := (given "line_width" (.int Datum.defaultWidth)).width?
  let doctype := (given "doctype" (.str "html")).text?
  match jsUri, baseUri, outDir, lineWidth, doctype with
  | .ok jsUri, .ok baseUri, .ok outDir, .ok lineWidth, .ok doctype =>
    .ok { jsUri, baseUri, outDir, lineWidth, doctype }
  | _, _, _, _, _ =>
    .error (.refusedFields (FieldFault.ofCheck "js_uri" jsUri ++
      FieldFault.ofCheck "base_uri" baseUri ++ FieldFault.ofCheck "out_dir" outDir ++
      FieldFault.ofCheck "line_width" lineWidth ++ FieldFault.ofCheck "doctype" doctype))

/-- Values that the command line gives. -/
structure Overrides where
  jsUri : Option String
  baseUri : Option String
  outDir : Option Path
  lineWidth : Option Int
deriving DecidableEq, Repr

def fileName : String := "pyproject.toml"

def sectionName : String := "hlisp"

def upwards (place : Place) : List Place :=
  (FileTree.placesTo place).reverse

/-- The nearest settings file from a place upwards: its directory and its content. -/
def nearestFile? (t : FileTree) (place : Place) : Option (Place × ByteArray) :=
  (upwards place).findSome? fun dir => (t.contentAt? (dir ++ [fileName])).map (dir, ·)

def sectionOf (table : Toml.Table) : Except Fault Toml.Value :=
  match Named.find? table "tool" with
  | none => .ok (.table [])
  | some (.table tools) => .ok ((Named.find? tools sectionName).getD (.table []))
  | some _ => .error .noSuchMember

def loadSection (t : FileTree) (place : Place) : Except Fault (Toml.Value × Option Place) :=
  match nearestFile? t place with
  | none => .ok (.table [], none)
  | some (dir, bytes) => do
    match Toml.parse (← Utf8.decode bytes) with
    | .error .malformed => throw (.malformedSettings (Path.ofPlace (dir ++ [fileName])).text)
    | .error (.tooManyDigits n) => throw (.tooManyDigits n)
    | .ok table => return (← sectionOf table, some dir)

def occursIn (part : List Char) : List Char → Bool
  | [] => part.isEmpty
  | c :: cs => part.isPrefixOf (c :: cs) || occursIn part cs

def isText (s : String) : Toml.Value → Bool
  | .str t => t == s
  | _ => false

/-- A section that is no table is refused: as one without the members asked for if it can be
searched for them in vain, or need not be, and otherwise as being of the wrong kind. -/
def refuseSection (found : Toml.Value) (outDir : Option Path) : Fault :=
  match found, outDir with
  | _, some _ => .noSuchMember
  | .str s, none =>
    if occursIn "out_dir".toList s.toList then .wrongKind else .noSuchMember
  | .array items, none => if items.any (isText "out_dir") then .wrongKind else .noSuchMember
  | _, none => .wrongKind

/-- The output directory of a section; a relative one starts at the settings file. -/
def outDirOf (table : Toml.Table) (dir : Option Place) : Except Fault FieldValue :=
  match Named.find? table "out_dir" with
  | none => .ok .null
  | some (.str s) =>
    let p := Path.ofText s
    match dir with
    | none => .ok (.path p)
    | some dir =>
      if p.absolute then .ok (.path p) else do return .path (Path.ofPlace (← p.place? dir))
  | some _ => .error .wrongKind

/-- A text of the command line that is not empty, or else the value of the section. -/
def override (given : Option String) (table : Toml.Table) (name : String) (default : FieldValue) :
    FieldValue :=
  match given with
  | none | some "" => ((Named.find? table name).map FieldValue.ofToml).getD default
  | some s => .str s

def load (t : FileTree) (overrides : Overrides) (search : Path) : Except Fault Settings := do
  let (found, dir) ← loadSection t (← search.place? t.cwd)
  match found with
  | .table table =>
    let outDir ← match overrides.outDir with
      | some p => pure (.path p)
      | none => outDirOf table dir
    let lineWidth := match overrides.lineWidth with
      | some n => .int n
      | none =>
        ((Named.find? table "line_width").map FieldValue.ofToml).getD (.int Datum.defaultWidth)
    ofFields
      [("js_uri", override overrides.jsUri table "js_uri" (.str "main.js")),
       ("base_uri", override overrides.baseUri table "base_uri" .null),
       ("out_dir", outDir),
       ("line_width", lineWidth),
       ("doctype", override none table "doctype" (.str "html"))]
  | other => throw (refuseSection other overrides.outDir)

end Settings

end PageForms
