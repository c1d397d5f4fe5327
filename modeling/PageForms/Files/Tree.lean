import PageForms.Files.Path
import PageForms.Files.Utf8

/-!
# Directory trees

A tree of directories and files as a value. Places are lists of names from the root. Every
operation takes the tree and, where it changes it, gives the new one. What can be read and written
depends on the tree alone: permissions and the room that is left are not modelled.
-/

namespace PageForms

abbrev Place := List String

/-- Directories and files, and the working directory that relative paths start from. -/
structure FileTree where
  cwd : Place
  directories : List Place
  files : List (Place × ByteArray)

namespace FileTree

def placesTo : Place → List Place
  | [] => [[]]
  | name :: rest => [] :: (placesTo rest).map (name :: ·)

def empty (cwd : Place) : FileTree :=
  { cwd, directories := placesTo cwd, files := [] }

def contentAt? (t : FileTree) (place : Place) : Option ByteArray :=
  (t.files.find? fun f => f.1 == place).map Prod.snd

def isFileAt (t : FileTree) (place : Place) : Bool :=
  (t.contentAt? place).isSome

def isDirectoryAt (t : FileTree) (place : Place) : Bool :=
  place.isEmpty || t.directories.contains place

/-- Follows names through directories. The last name need not exist. -/
def walk (t : FileTree) (place : Place) : List String → Except Fault Place
  | [] => .ok place
  | part :: parts =>
    if t.isDirectoryAt place then
      t.walk (if part = ".." then place.dropLast else place ++ [part]) parts
    else if t.isFileAt place then .error .notDirectory
    else .error .fileNotFound

def locate (t : FileTree) (p : Path) : Except Fault Place :=
  if p.hasNull then .error .nullInPath
  else t.walk (if p.absolute then [] else t.cwd) p.parts

def isFile (t : FileTree) (p : Path) : Bool :=
  match t.locate p with
  | .ok place => t.isFileAt place
  | .error _ => false

def isDirectory (t : FileTree) (p : Path) : Bool :=
  match t.locate p with
  | .ok place => t.isDirectoryAt place
  | .error _ => false

def exists? (t : FileTree) (p : Path) : Bool :=
  t.isFile p || t.isDirectory p

def read (t : FileTree) (p : Path) : Except Fault ByteArray := do
  let place ← t.locate p
  if t.isDirectoryAt place then throw .isDirectory
  match t.contentAt? place with
  | some bytes => return bytes
  | none => throw .fileNotFound

def readText (t : FileTree) (p : Path) : Except Fault String := do
  Utf8.decodeText (← t.read p)

def store (place : Place) (bytes : ByteArray) : List (Place × ByteArray) → List (Place × ByteArray)
  | [] => [(place, bytes)]
  | f :: rest => if f.1 = place then (place, bytes) :: rest else f :: store place bytes rest

def storeAt (t : FileTree) (place : Place) (bytes : ByteArray) : FileTree :=
  { t with files := store place bytes t.files }

def write (t : FileTree) (p : Path) (bytes : ByteArray) : Except Fault FileTree := do
  let place ← t.locate p
  if t.isDirectoryAt place then throw .isDirectory
  return t.storeAt place bytes

/-- Creates the directories that some names lead through, if they are missing. The new tree is
given together with the outcome. A file in the way is met either as the directory to be created or,
before anything has been created, as one that leads nowhere. -/
def createFrom (t : FileTree) (created : Bool) (place : Place) :
    List String → FileTree × Except Fault Place
  | [] => (t, .ok place)
  | part :: parts =>
    let next := if part = ".." then place.dropLast else place ++ [part]
    if t.isDirectoryAt next then t.createFrom created next parts
    else if t.isFileAt next then
      (t, .error (if created || parts.isEmpty then .fileExists else .notDirectory))
    else
      FileTree.createFrom { t with directories := t.directories ++ [next] } true next parts

def createDirectory (t : FileTree) (p : Path) : FileTree × Except Fault Unit :=
  if p.hasNull then (t, .error .nullInPath)
  else
    let (t, result) := t.createFrom false (if p.absolute then [] else t.cwd) p.parts
    (t, result.map fun _ => ())

/-- The files below a directory, as paths seen from the path of the directory. -/
def filesBelow (t : FileTree) (p : Path) : List Path :=
  match t.locate p with
  | .error _ => []
  | .ok place =>
    t.files.filterMap fun f =>
      if place.isPrefixOf f.1 then some { p with parts := p.parts ++ f.1.drop place.length }
      else none

def changesSince (t earlier : FileTree) : List (Place × ByteArray) :=
  t.files.filter fun f => earlier.contentAt? f.1 != some f.2

def addFile (t : FileTree) (p : Path) (bytes : ByteArray) : FileTree :=
  let t := (t.createDirectory p.parent).1
  t.storeAt (p.resolve t.cwd) bytes

def addDirectory (t : FileTree) (p : Path) : FileTree :=
  (t.createDirectory p).1

end FileTree

end PageForms
