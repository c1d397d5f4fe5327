import PageForms.Settings.Toml.Moment
import PageForms.Settings.Toml.Number
import PageForms.Settings.Toml.Quoted

/-!
# Values at the front of a text

Arrays may run over several lines and hold comments; tables in braces stay on one line. A key in
braces may lead through tables that other keys there have made, but not into a value that was given
as a whole.
-/

namespace PageForms.Toml

def bool? (cs : List Char) : Option (Value × List Char) :=
  match cs with
  | 't' :: 'r' :: 'u' :: 'e' :: rest => some (.bool true, rest)
  | 'f' :: 'a' :: 'l' :: 's' :: 'e' :: rest => some (.bool false, rest)
  | _ => none

def simpleValue (cs : List Char) : Except Problem (Front Value) :=
  match string? cs, bool? cs with
  | some found, _ => (fun r => (.str r.1, r.2)) <$> found
  | none, some found => .ok found
  | none, none =>
    match moment? cs with
    | some found => found
    | none => (number? cs).getD (.error .malformed)

/-- The change of a table that a key leads to. Tables that are missing on the way are made. With
`intoArrays` the way may lead through an array, and there into its last item. -/
def changeAt (intoArrays : Bool) (change : Table → Option Table) : Key → Table → Option Table
  | [], t => change t
  | name :: rest, t =>
    match Named.find? t name with
    | none =>
      (changeAt intoArrays change rest []).map fun inner => Named.insert t name (.table inner)
    | some (.table inner) =>
      (changeAt intoArrays change rest inner).map fun inner => Named.insert t name (.table inner)
    | some (.array items) =>
      match intoArrays, items.getLast? with
      | true, some (.table inner) =>
        (changeAt intoArrays change rest inner).map fun inner =>
          Named.insert t name (.array (items.dropLast ++ [.table inner]))
      | _, _ => none
    | some _ => none

def addEntry (name : String) (value : Value) (t : Table) : Option Table :=
  if (Named.find? t name).isSome then none else some (Named.insert t name value)

def putAt (intoArrays : Bool) (path : Key) (value : Value) (t : Table) : Except Problem Table :=
  match path.getLast? with
  | none => .error .malformed
  | some name =>
    match changeAt intoArrays (addEntry name value) path.dropLast t with
    | some t => .ok t
    | none => .error .malformed

mutual

/-- A value at the front; values are at most `fuel` deep in one another. -/
def valueFrom : Nat → List Char → Except Problem (Front Value)
  | 0, _ => .error .malformed
  | fuel + 1, cs =>
    match cs with
    | '[' :: rest => do
      let (items, rest) ← itemsFrom fuel (← skipFiller false rest)
      return (.array items, rest)
    | '\x7b' :: rest =>
      match rest.dropWhile isGap with
      | '\x7d' :: rest => .ok (.table [], rest)
      | rest => do
        let (entries, rest) ← entriesFrom fuel [] [] rest
        return (.table entries, rest)
    | _ => simpleValue cs

def itemsFrom : Nat → List Char → Except Problem (Front (List Value))
  | 0, _ => .error .malformed
  | fuel + 1, cs =>
    match cs with
    | ']' :: rest => .ok ([], rest)
    | _ => do
      let (item, rest) ← valueFrom fuel cs
      match ← skipFiller false rest with
      | ']' :: rest => return ([item], rest)
      | ',' :: rest =>
        let (items, rest) ← itemsFrom fuel (← skipFiller false rest)
        return (item :: items, rest)
      | _ => throw .malformed

/-- The entries of a table in braces up to the closing one; `closed` are the keys of those before
it that have others inside them. -/
def entriesFrom : Nat → List Key → Table → List Char → Except Problem (Front Table)
  | 0, _, _, _ => .error .malformed
  | fuel + 1, closed, t, cs => do
    let (path, value, rest) ← pairFrom fuel cs
    if closed.any (·.isPrefixOf path) then throw .malformed
    let t ← putAt false path value t
    match rest.dropWhile isGap with
    | '\x7d' :: rest => return (t, rest)
    | ',' :: rest =>
      entriesFrom fuel (if value.isNested then path :: closed else closed) t
        (rest.dropWhile isGap)
    | _ => throw .malformed

def pairFrom : Nat → List Char → Except Problem (Key × Value × List Char)
  | 0, _ => .error .malformed
  | fuel + 1, cs => do
    let (path, rest) ← key cs
    match rest with
    | '=' :: rest =>
      let (value, rest) ← valueFrom fuel (rest.dropWhile isGap)
      return (path, value, rest)
    | _ => throw .malformed

end

def pair (cs : List Char) : Except Problem (Key × Value × List Char) :=
  pairFrom (2 * cs.length + 2) cs

end PageForms.Toml
