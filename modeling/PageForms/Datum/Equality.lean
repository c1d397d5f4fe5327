import PageForms.Datum.Basic

/-!
# Equality of data and maps

`Datum.equal` is the equality by which keys are told apart. Numbers compare by value, whatever
their kind, and `true` and `false` count as one and zero. Sequences are equal when they are of one
shape and their items are; the order of a map's entries does not matter.

A map, a plain list and every sequence that holds one cannot be a key.
-/

namespace PageForms

/-- The value of a datum that counts as a number. -/
inductive Number where
  | int (n : Int)
  | float (x : Binary64)
deriving DecidableEq, Repr

namespace Number

def equal : Number → Number → Bool
  | .int a, .int b => a == b
  | .int a, .float b => b.equalsInt a
  | .float a, .int b => a.equalsInt b
  | .float a, .float b => a.equal b

/-- The nearest float; there is none for an integer beyond the largest float. -/
def toBinary64 : Number → Except Fault Binary64
  | .int n =>
    match Binary64.ofInt n with
    | .finite s m q => .ok (.finite s m q)
    | _ => .error .tooLargeForFloat
  | .float x => .ok x

/-- The sum as a datum: an integer if both are. -/
def add : Number → Number → Except Fault Datum
  | .int a, .int b => .ok (.int (a + b))
  | a, b => do return .float ((← a.toBinary64).add (← b.toBinary64))

end Number

namespace Datum

def number? : Datum → Option Number
  | .bool b => some (.int (if b then 1 else 0))
  | .int n => some (.int n)
  | .float x => some (.float x)
  | _ => none

mutual

def equal : Datum → Datum → Bool
  | .nil, .nil => true
  | .str a, .str b => a == b
  | .symbol a, .symbol b => a == b
  | .keyword a, .keyword b => a == b
  | .literal a, .literal b => a == b
  | .seq s xs, .seq t ys => s == t && equalItems xs ys
  | .map es, .map fs => es.length == fs.length && includedIn es fs
  | a, b =>
    match a.number?, b.number? with
    | some m, some n => m.equal n
    | _, _ => false

def equalItems : List Datum → List Datum → Bool
  | [], [] => true
  | x :: xs, y :: ys => equal x y && equalItems xs ys
  | _, _ => false

def includedIn : List (Datum × Datum) → List (Datum × Datum) → Bool
  | [], _ => true
  | (k, v) :: es, fs => fs.any (fun f => equal k f.1 && equal v f.2) && includedIn es fs

end

mutual

def hashable : Datum → Bool
  | .map _ => false
  | .seq .list _ => false
  | .seq _ xs => allHashable xs
  | _ => true

def allHashable : List Datum → Bool
  | [] => true
  | x :: xs => hashable x && allHashable xs

end

end Datum

namespace Entries

def find? (es : Entries) (key : Datum) : Option Datum :=
  (List.find? (fun e => key.equal e.1) es).map Prod.snd

/-- Stores a value under a key: in the place of an equal key, or else at the end. -/
def insert (es : Entries) (key value : Datum) : Entries :=
  match es with
  | [] => [(key, value)]
  | (k, v) :: rest => if key.equal k then (k, value) :: rest else (k, v) :: insert rest key value

def ofList (pairs : List (Datum × Datum)) : Entries :=
  pairs.foldl (fun es e => insert es e.1 e.2) []

def keys (es : Entries) : List Datum :=
  es.map Prod.fst

end Entries

end PageForms
