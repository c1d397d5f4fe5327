import PageForms.Settings.Toml.Item

/-!
# Settings files

A settings file is a TOML text: headers that open tables, or add tables to arrays, and keys with
values for the table in force. A table may be opened once, whether by a header or by a key with
dots, and a value that was given as a whole may not be added to.
-/

namespace PageForms.Toml

/-- What has been read so far. -/
structure State where
  /-- The table of everything. -/
  root : Table
  /-- The header in force. -/
  header : Key
  /-- The tables that may not be opened by a header or led through by a key with dots. -/
  opened : List Key
  /-- Those that will be so from the next header on. -/
  pending : List Key
  /-- The values that may not be added to. -/
  closed : List Key

namespace State

def initial : State :=
  { root := [], header := [], opened := [], pending := [], closed := [] }

/-- The key leads to a value, or into one, that may not be added to. -/
def isClosed (s : State) (path : Key) : Bool :=
  s.closed.any (·.isPrefixOf path)

def waysTo (s : State) (path : Key) : List Key :=
  (List.range (path.length - 1)).map fun n => s.header ++ path.take (n + 1)

def assign (s : State) (path : Key) (value : Value) : Except Problem State := do
  let ways := s.waysTo path
  if ways.any s.opened.contains then throw .malformed
  if s.isClosed (s.header ++ path.dropLast) then throw .malformed
  let root ← putAt true (s.header ++ path) value s.root
  return { s with
    root
    pending := s.pending ++ ways
    closed := if value.isNested then (s.header ++ path) :: s.closed else s.closed }

def beforeHeader (s : State) : State :=
  { s with opened := s.pending ++ s.opened, pending := [] }

def openTable (s : State) (path : Key) : Except Problem State :=
  if s.opened.contains path || s.isClosed path then .error .malformed
  else
    match changeAt true some path s.root with
    | some root => .ok { s with root, header := path, opened := path :: s.opened }
    | none => .error .malformed

def growArray (name : String) (t : Table) : Option Table :=
  match Named.find? t name with
  | none => some (Named.insert t name (.array [.table []]))
  | some (.array items) => some (Named.insert t name (.array (items ++ [.table []])))
  | some _ => none

/-- Opens a new table in an array. What was known about the one before it no longer holds. -/
def openItem (s : State) (path : Key) : Except Problem State :=
  if s.isClosed path then .error .malformed
  else
    match path.getLast? with
    | none => .error .malformed
    | some name =>
      match changeAt true (growArray name) path.dropLast s.root with
      | some root =>
        .ok { s with
          root
          header := path
          opened := path :: s.opened.filter fun k => !path.isPrefixOf k
          closed := s.closed.filter fun k => !path.isPrefixOf k }
      | none => .error .malformed

end State

def statement (s : State) (cs : List Char) : Except Problem (Front State) :=
  match cs with
  | '#' :: _ => .ok (s, cs)
  | '[' :: '[' :: rest => do
    let (path, rest) ← key (rest.dropWhile isGap)
    let s ← s.beforeHeader.openItem path
    match rest with
    | ']' :: ']' :: rest => return (s, rest)
    | _ => throw .malformed
  | '[' :: rest => do
    let (path, rest) ← key (rest.dropWhile isGap)
    let s ← s.beforeHeader.openTable path
    match rest with
    | ']' :: rest => return (s, rest)
    | _ => throw .malformed
  | _ => do
    let (path, value, rest) ← pair cs
    return (← s.assign path value, rest)

def statements : Nat → State → List Char → Except Problem State
  | 0, s, _ => .ok s
  | fuel + 1, s, cs =>
    match cs.dropWhile isGap with
    | [] => .ok s
    | '\n' :: rest => statements fuel s rest
    | cs => do
      let (s, rest) ← statement s cs
      match ← skipComment (rest.dropWhile isGap) with
      | [] => return s
      | '\n' :: rest => statements fuel s rest
      | _ => throw .malformed

def plainLineEnds : List Char → List Char
  | '\r' :: '\n' :: cs => '\n' :: plainLineEnds cs
  | c :: cs => c :: plainLineEnds cs
  | [] => []

def parse (text : String) : Except Problem Table := do
  let cs := plainLineEnds text.toList
  return (← statements (cs.length + 1) State.initial cs).root

end PageForms.Toml
