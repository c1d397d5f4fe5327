import PageForms.Datum.Equality

/-!
# Data as sequences

Walking over a value, its length, indexing, slicing and appending. A string is the sequence of its
characters; walking over a map meets its keys, and indexing a map looks a key up. Atoms other than
strings are no sequences.
-/

namespace PageForms.Datum

def char (c : Char) : Datum :=
  .str (String.ofList [c])

def items : Datum → Except Fault (List Datum)
  | .seq _ xs => .ok xs
  | .map es => .ok (Entries.keys es)
  | .str s => .ok (s.toList.map char)
  | _ => .error .wrongKind

def size (v : Datum) : Except Fault Nat := do
  return (← v.items).length

/-- The index counted from the front, if the index, negative ones counting from the end, lies in a
sequence of that length. -/
def resolveIndex? (length : Nat) (i : Int) : Option Nat :=
  let j := if i < 0 then i + length else i
  if 0 ≤ j ∧ j < length then some j.toNat else none

/-- The item at an index, or a map's value under that number. -/
def get (v : Datum) (i : Int) : Except Fault Datum :=
  match v with
  | .map es =>
    match Entries.find? es (.int i) with
    | some x => .ok x
    | none => .error .noSuchKey
  | _ => do
    let xs ← v.items
    match (resolveIndex? xs.length i).bind (xs[·]?) with
    | some x => return x
    | none => throw .outOfRange

def clamp (length : Nat) (low high : Int) (bound : Option Int) (absent : Int) : Int :=
  match bound with
  | none => absent
  | some i =>
    let j := if i < 0 then i + length else i
    if j < low then low else if high < j then high else j

/-- The indices a slice takes, in order; `step` is not zero. -/
def sliceIndices (length : Nat) (start stop : Option Int) (step : Int) : List Nat :=
  let n : Int := length
  if 0 < step then
    let a := clamp length 0 n start 0
    let b := clamp length 0 n stop n
    (List.range ((b - a + step - 1) / step).toNat).map fun (k : Nat) => (a + step * k).toNat
  else
    let a := clamp length (-1) (n - 1) start (n - 1)
    let b := clamp length (-1) (n - 1) stop (-1)
    (List.range ((a - b - step - 1) / (-step)).toNat).map fun (k : Nat) => (a + step * k).toNat

def sliceList {α : Type} (xs : List α) (start stop : Option Int) (step : Int) : List α :=
  (sliceIndices xs.length start stop step).filterMap (xs[·]?)

def slice (v : Datum) (start stop : Option Int) (step : Int) : Except Fault Datum :=
  match v with
  | .seq s xs =>
    if step = 0 then .error .zeroStep else .ok (.seq s (sliceList xs start stop step))
  | .str s =>
    if step = 0 then .error .zeroStep
    else .ok (.str (String.ofList (sliceList s.toList start stop step)))
  | _ => .error .wrongKind

def dropItems (n : Nat) : Datum → Except Fault Datum
  | .seq s xs => .ok (.seq s (xs.drop n))
  | .str s => .ok (.str (String.ofList (s.toList.drop n)))
  | _ => .error .wrongKind

/-- Appends to a sequence. A bracketed sequence takes the items of anything that has some, the
others take only their own kind. Numbers are added. -/
def append : Datum → Datum → Except Fault Datum
  | .str a, .str b => .ok (.str (a ++ b))
  | .seq .list xs, .seq .list ys => .ok (.seq .list (xs ++ ys))
  | .seq .list _, _ => .error .wrongKind
  | .seq .tuple _, .seq .list _ => .error .wrongKind
  | .seq .tuple xs, .seq _ ys => .ok (.seq .tuple (xs ++ ys))
  | .seq .tuple _, _ => .error .wrongKind
  | .seq s xs, v => return .seq s (xs ++ (← v.items))
  | a, b =>
    match a.number?, b.number? with
    | some m, some n => m.add n
    | _, _ => .error .wrongKind

def isSameKey (key v : Datum) : Except Fault Bool :=
  if key.hashable && v.hashable then .ok (v.equal key) else .error .wrongKind

end PageForms.Datum
