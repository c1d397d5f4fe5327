import PageForms.Datum.Sequence

/-!
# Replacing parts of data

Outermost matches are replaced throughout a value. Sequences of every shape are descended into;
maps and atoms are leaves. A replacement is not looked into again.

A node is told apart from its equals by its identity, and one object may stand at several positions:
`Sharing` says which of them have the same object, and replacing it replaces all of them. In a value
whose nodes were made one by one only the constants `nil`, `true` and `false` and the empty tuple
are shared.
-/

namespace PageForms.Datum

mutual

/-- Replaces every outermost node that satisfies `p`. -/
def replaceWhere (p : Datum → Bool) (f : Datum → Except Fault Datum) : Datum → Except Fault Datum
  | .seq shape xs =>
    if p (.seq shape xs) then f (.seq shape xs) else .seq shape <$> replaceWhereIn p f xs
  | v => if p v then f v else .ok v

def replaceWhereIn (p : Datum → Bool) (f : Datum → Except Fault Datum) :
    List Datum → Except Fault (List Datum)
  | [] => .ok []
  | x :: xs => do
    let y ← replaceWhere p f x
    let ys ← replaceWhereIn p f xs
    return y :: ys

end

mutual

def visited (p : Datum → Bool) : Datum → List Datum
  | .seq shape xs =>
    .seq shape xs :: (if p (.seq shape xs) then [] else visitedItems p xs)
  | v => [v]

def visitedItems (p : Datum → Bool) : List Datum → List Datum
  | [] => []
  | x :: xs => visited p x ++ visitedItems p xs

end

def nodeAt (root : Datum) (path : List Int) : Except Fault Datum :=
  path.foldlM get root

/-! ## Positions -/

/-- The part at a position. Maps and atoms have no parts besides themselves. -/
def part? : Datum → List Nat → Option Datum
  | v, [] => some v
  | .seq _ xs, i :: pos => xs[i]?.bind fun x => part? x pos
  | _, _ :: _ => none

def position? : Datum → List Int → Option (List Nat)
  | _, [] => some []
  | .seq _ xs, i :: path => do
    let n ← resolveIndex? xs.length i
    let x ← xs[n]?
    return n :: (← position? x path)
  | _, _ :: _ => none

mutual

/-- Replaces every outermost part at a marked position. -/
def replaceMarked (marked : List Nat → Bool) (new : Datum) : Datum → Datum
  | .seq shape xs => if marked [] then new else .seq shape (replaceMarkedFrom marked new 0 xs)
  | v => if marked [] then new else v

def replaceMarkedFrom (marked : List Nat → Bool) (new : Datum) (n : Nat) : List Datum → List Datum
  | [] => []
  | x :: xs =>
    replaceMarked (fun pos => marked (n :: pos)) new x :: replaceMarkedFrom marked new (n + 1) xs

end

/-! ## Objects -/

/-- Which positions of a value have the same object. -/
structure Sharing (root : Datum) where
  same : List Nat → List Nat → Bool
  refl : ∀ pos, same pos pos = true
  part_eq : ∀ {pos other}, same pos other = true → root.part? other = root.part? pos

/-- Replaces the object at a position wherever it stands. -/
def Sharing.replace {root : Datum} (s : Sharing root) (pos : List Nat) (new : Datum) : Datum :=
  replaceMarked (s.same pos) new root

def isSameConstant : Datum → Datum → Bool
  | .nil, .nil => true
  | .bool a, .bool b => a == b
  | .seq .tuple [], .seq .tuple [] => true
  | _, _ => false

theorem eq_of_isSameConstant {v w : Datum} (h : isSameConstant v w = true) : v = w := by
  unfold isSameConstant at h
  split at h
  · rfl
  · rw [beq_iff_eq.1 h]
  · rfl
  · cases h

def isConstantAt (root : Datum) (constant : Datum) (pos : List Nat) : Bool :=
  (root.part? pos).any (isSameConstant constant)

theorem isConstantAt_iff {root constant : Datum} {pos : List Nat} :
    isConstantAt root constant pos = true ↔
      isSameConstant constant constant = true ∧ root.part? pos = some constant := by
  rw [isConstantAt, Option.any_eq_true]
  constructor
  · rintro ⟨v, hv, hsame⟩
    obtain rfl := eq_of_isSameConstant hsame
    exact ⟨hsame, hv⟩
  · rintro ⟨hsame, hv⟩
    exact ⟨constant, hv, hsame⟩

def constantsShared (root : Datum) : Sharing root where
  same pos other := other == pos || (root.part? pos).any fun v => isConstantAt root v other
  refl pos := by rw [beq_self_eq_true, Bool.true_or]
  part_eq := by
    intro pos other h
    rw [Bool.or_eq_true, beq_iff_eq, Option.any_eq_true] at h
    rcases h with rfl | ⟨v, hv, hother⟩
    · rfl
    · rw [(isConstantAt_iff.1 hother).2, hv]

/-- Replaces the node that a path leads to in a value whose nodes were made one by one. -/
def replaceNode (root : Datum) (path : List Int) (replacement : Datum) : Except Fault Datum := do
  let target ← root.nodeAt path
  match root.position? path with
  | some pos => return (constantsShared root).replace pos replacement
  | none => return replaceMarked (isConstantAt root target) replacement root

end PageForms.Datum
