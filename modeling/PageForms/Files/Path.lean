import PageForms.Fault
import PageForms.Text.Join

/-!
# Paths

A path is a list of names, relative or from the root. Repeated slashes, names `.` and a slash at
the end say nothing and are dropped when a path is read; `..` stays until the path is resolved. Only
two slashes at the very front are kept: such a path is also one from the root.
-/

namespace PageForms

/-- Where a path starts. -/
inductive PathStart where
  | here
  | root
  /-- The root, written with two slashes. -/
  | doubledRoot
deriving DecidableEq, Repr

namespace PathStart

def ofText : List Char → PathStart
  | '/' :: '/' :: '/' :: _ => .root
  | '/' :: '/' :: _ => .doubledRoot
  | '/' :: _ => .root
  | _ => .here

def text : PathStart → String
  | here => ""
  | root => "/"
  | doubledRoot => "//"

end PathStart

/-- A path. -/
structure Path where
  start : PathStart
  parts : List String
deriving DecidableEq, Repr

namespace Path

def absolute (p : Path) : Bool :=
  p.start != .here

def splitSlashes : List Char → List (List Char)
  | [] => [[]]
  | c :: cs =>
    if c = '/' then [] :: splitSlashes cs
    else
      match splitSlashes cs with
      | [] => [[c]]
      | part :: parts => (c :: part) :: parts

def ofText (s : String) : Path :=
  { start := PathStart.ofText s.toList
    parts := ((splitSlashes s.toList).map String.ofList).filter fun part =>
      part != "" && part != "." }

/-- The text of a path. The relative path without names is `.`. -/
def text (p : Path) : String :=
  if !p.absolute && p.parts.isEmpty then "."
  else p.start.text ++ Text.joinWith "/" p.parts

def join (p q : Path) : Path :=
  if q.absolute then q else { p with parts := p.parts ++ q.parts }

def child (p : Path) (name : String) : Path :=
  p.join (ofText name)

def parent (p : Path) : Path :=
  { p with parts := p.parts.dropLast }

def name (p : Path) : String :=
  p.parts.getLastD ""

def partsBefore : List String → List String → Bool
  | [], _ => true
  | _ :: _, [] => false
  | a :: as, b :: bs => if a = b then partsBefore as bs else decide (a ≤ b)

/-- A name cut before its last dot, unless that is its first or its last character. -/
def splitName (name : String) : String × String :=
  let reversed := name.toList.reverse
  let ending := reversed.takeWhile (· != '.')
  match reversed.dropWhile (· != '.') with
  | _ :: c :: front =>
    if ending.isEmpty then (name, "")
    else (String.ofList (c :: front).reverse, String.ofList ('.' :: ending.reverse))
  | _ => (name, "")

def stem (p : Path) : String :=
  (splitName p.name).1

def suffix (p : Path) : String :=
  (splitName p.name).2

def relativeTo (p root : Path) : Path :=
  { start := .here, parts := p.parts.drop root.parts.length }

def hasNull (p : Path) : Bool :=
  p.parts.any fun part => part.toList.contains '\x00'

/-- Follows names, going up for `..`, from a place given by its names from the root. -/
def follow (place : List String) (parts : List String) : List String :=
  parts.foldl (fun place part => if part = ".." then place.dropLast else place ++ [part]) place

/-- The place a path leads to from a working directory, as names from the root. -/
def resolve (cwd : List String) (p : Path) : List String :=
  follow (if p.absolute then [] else cwd) p.parts

/-- The place a path leads to, unless it has a name that no file can have. -/
def place? (cwd : List String) (p : Path) : Except Fault (List String) :=
  if p.hasNull then .error .nullInPath else .ok (p.resolve cwd)

def ofPlace (place : List String) : Path :=
  { start := .root, parts := place }

end Path

end PageForms
