import PageForms.Datum.Basic

/-!
# Identity of values is decidable

Two values are compared constructor by constructor. Unlike `Datum.equal`, which compares numbers by
their value and maps without regard to order, this is identity.
-/

namespace PageForms.Datum

mutual

def same : Datum → Datum → Bool
  | .nil, .nil => true
  | .bool a, .bool b => a == b
  | .int a, .int b => a == b
  | .float a, .float b => a == b
  | .str a, .str b => a == b
  | .symbol a, .symbol b => a == b
  | .keyword a, .keyword b => a == b
  | .literal a, .literal b => a == b
  | .seq s xs, .seq t ys => s == t && sameItems xs ys
  | .map es, .map fs => sameEntries es fs
  | _, _ => false

def sameItems : List Datum → List Datum → Bool
  | [], [] => true
  | x :: xs, y :: ys => same x y && sameItems xs ys
  | _, _ => false

def sameEntries : List (Datum × Datum) → List (Datum × Datum) → Bool
  | [], [] => true
  | (k, v) :: es, (l, w) :: fs => same k l && same v w && sameEntries es fs
  | _, _ => false

end

mutual

private theorem same_iff (a b : Datum) : same a b = true ↔ a = b := by
  cases a with
  | seq s xs => cases b <;> simp [same, sameItems_iff xs]
  | map es => cases b <;> simp [same, sameEntries_iff es]
  | _ => cases b <;> simp [same]

private theorem sameItems_iff (xs ys : List Datum) : sameItems xs ys = true ↔ xs = ys := by
  cases xs with
  | nil => cases ys <;> simp [sameItems]
  | cons x xs => cases ys <;> simp [sameItems, same_iff x, sameItems_iff xs]

private theorem sameEntries_iff (es fs : List (Datum × Datum)) :
    sameEntries es fs = true ↔ es = fs := by
  cases es with
  | nil => cases fs <;> simp [sameEntries]
  | cons e es =>
      obtain ⟨k, v⟩ := e
      cases fs with
      | nil => simp [sameEntries]
      | cons f fs =>
          obtain ⟨l, w⟩ := f
          simp [sameEntries, same_iff k, same_iff v, sameEntries_iff es, and_assoc]

end

instance : DecidableEq Datum := fun a b =>
  decidable_of_iff (same a b = true) (same_iff a b)

end PageForms.Datum
