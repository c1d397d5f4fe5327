import PageForms.Page.Tag

/-!
# Canonical forms

`withAttributes` gives every element an attribute map, and `withKnownTags` turns every element
with an unknown tag into a `div`. Both descend into the children of elements and leave everything
else as it is.
-/

namespace PageForms.Datum

mutual

/-- The value with an attribute map in every form that has a symbol at its head. Plain text and
comments have no elements inside. -/
def withAttributes : Datum → Datum
  | .seq shape (.symbol name :: .map es :: xs) =>
    if shape.isCall && !Tag.isPseudo name then
      .form (.symbol name :: .map es :: listWithAttributes xs)
    else .seq shape (.symbol name :: .map es :: xs)
  | .seq shape (.symbol name :: xs) =>
    if shape.isCall && !Tag.isPseudo name then
      .form (.symbol name :: .map [] :: listWithAttributes xs)
    else .seq shape (.symbol name :: xs)
  | v => v

def listWithAttributes : List Datum → List Datum
  | [] => []
  | x :: xs => withAttributes x :: listWithAttributes xs

end

def knownHead (head : Datum) : Datum :=
  if head.isTag then head else .symbol "div"

mutual

/-- The value with a known tag in every form that has an attribute map. -/
def withKnownTags : Datum → Datum
  | .seq shape (head :: .map es :: xs) =>
    if shape.isCall then .form (knownHead head :: .map es :: listWithKnownTags xs)
    else .seq shape (head :: .map es :: xs)
  | v => v

def listWithKnownTags : List Datum → List Datum
  | [] => []
  | x :: xs => withKnownTags x :: listWithKnownTags xs

end

end PageForms.Datum
