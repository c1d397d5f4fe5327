import PageForms.Datum.Sequence

/-!
# Forms as elements

An element is a form `(head attributes? child*)`: a map in second place holds its attributes. The
operations take any value and read it as a sequence.
-/

namespace PageForms.Datum

def attributesIn : List Datum → Option Entries
  | _ :: .map es :: _ => some es
  | _ => none

def childrenIn : List Datum → List Datum
  | _ :: .map _ :: xs => xs
  | _ :: xs => xs
  | [] => []

def attributes? (v : Datum) : Except Fault (Option Entries) :=
  match v with
  | .seq _ xs => .ok (attributesIn xs)
  | .map es =>
    if es.length ≤ 1 then .ok none
    else
      match Entries.find? es (.int 1) with
      | some (.map attrs) => .ok (some attrs)
      | some _ => .ok none
      | none => .error .noSuchKey
  | .str _ => .ok none
  | _ => .error .wrongKind

/-- The items of an element behind its head and attributes, as a sequence of the same kind. -/
def children (v : Datum) : Except Fault Datum := do
  match ← v.attributes? with
  | some _ => v.dropItems 2
  | none => v.dropItems 1

/-- The element with more children in front of the ones it has. Without attributes it gets an empty
map of them. -/
def prependChildren (v : Datum) (kids : List Datum) : Except Fault Datum := do
  let attrs ← v.attributes?
  let head ← v.get 0
  let rest ← (← v.children).items
  return .form (head :: .map (attrs.getD []) :: kids ++ rest)

end PageForms.Datum
