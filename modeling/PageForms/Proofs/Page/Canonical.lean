import PageForms.Proofs.Page.TagErasure

/-!
# Passes leave canonical forms

A pass over a form rebuilds the values that it acts on and goes on to their children; it stops at
everything else. What it rebuilds is canonical: a list with a symbol at its head and an attribute
map behind it. So what a pass meets the second time is canonical, and that it leaves alone.

Both passes over the forms of a page are of this kind: `withKnownTags` acts on forms with an
attribute map, and `withAttributes` on elements. The maps that `withAttributes` puts in are empty,
so a value stands for the same nodes as before.
-/

namespace PageForms.Datum

/-! ## Passes -/

/-- What is met on the way down from a value, from one that is acted on to its children. -/
inductive Meets (acts : Datum → Bool) : Datum → Datum → Prop
  | self (v : Datum) : Meets acts v v
  | child {shape : Shape} {xs : List Datum} {kid w : Datum} (h : acts (.seq shape xs) = true)
      (hkid : kid ∈ childrenIn xs) (hw : Meets acts kid w) : Meets acts (.seq shape xs) w

/-- A list with an attribute map, and at its head a symbol whose name satisfies `p`. -/
def IsCanonical (p : String → Prop) (v : Datum) : Prop :=
  ∃ name es kids, v = .form (.symbol name :: .map es :: kids) ∧ p name

/-- The function rebuilds the values that are acted on in canonical form, their children passed
over, and keeps all others. -/
structure IsPass (acts : Datum → Bool) (p : String → Prop) (f : Datum → Datum) : Prop where
  keeps : ∀ v, acts v = false → f v = v
  rebuilds : ∀ v, acts v = true → ∃ shape xs name es, v = .seq shape xs ∧ p name ∧
    f v = .form (.symbol name :: .map es :: (childrenIn xs).map f)
  copies : ∀ name es kids, p name → acts (.form (.symbol name :: .map es :: kids)) = true →
    f (.form (.symbol name :: .map es :: kids)) = .form (.symbol name :: .map es :: kids.map f)

/-- Whatever is acted on below the value is canonical already. -/
def IsNormal (acts : Datum → Bool) (p : String → Prop) (v : Datum) : Prop :=
  ∀ w, Meets acts v w → acts w = true → IsCanonical p w

namespace IsPass

variable {acts : Datum → Bool} {p : String → Prop} {f : Datum → Datum}

private theorem isNormal (hf : IsPass acts p f) (v : Datum) : IsNormal acts p (f v) := by
  induction v using induction_items with
  | step v ih =>
      intro w hw hacts
      by_cases hv : acts v = true
      · obtain ⟨shape, xs, name, es, rfl, hname, hform⟩ := hf.rebuilds v hv
        rw [hform] at hw
        cases hw with
        | self => exact ⟨name, es, _, rfl, hname⟩
        | child _ hkid hw =>
            obtain ⟨x, hx, rfl⟩ := List.mem_map.1 hkid
            exact ih shape xs rfl x (mem_of_mem_childrenIn hx) w hw hacts
      · rw [hf.keeps v (Bool.eq_false_iff.2 hv)] at hw
        cases hw with
        | self => exact absurd hacts hv
        | child hacts' _ _ => exact absurd hacts' hv

private theorem eq_self (hf : IsPass acts p f) (v : Datum) (h : IsNormal acts p v) : f v = v := by
  induction v using induction_items with
  | step v ih =>
      by_cases hv : acts v = true
      · obtain ⟨name, es, kids, rfl, hname⟩ := h v (.self v) hv
        have hkids : ∀ kid ∈ kids, f kid = kid := by
          intro kid hkid
          apply ih .form _ rfl kid (by simp [hkid])
          intro w hw
          exact h w (.child hv hkid hw)
        rw [hf.copies name es kids hname hv, List.map_congr_left hkids, List.map_id']
      · exact hf.keeps v (Bool.eq_false_iff.2 hv)

private theorem idempotent (hf : IsPass acts p f) (v : Datum) : f (f v) = f v :=
  hf.eq_self (f v) (hf.isNormal v)

/-- The values that a pass leaves alone are the normal ones. -/
theorem eq_self_iff (hf : IsPass acts p f) (v : Datum) : f v = v ↔ IsNormal acts p v := by
  constructor
  · intro h
    rw [← h]
    exact hf.isNormal v
  · exact hf.eq_self v

end IsPass

/-! ## Known tags -/

def hasAttributes : Datum → Bool
  | .seq shape (_ :: .map _ :: _) => shape.isCall
  | _ => false

private theorem withKnownTags_of_hasAttributes {shape : Shape} (hshape : shape.isCall = true)
    (head : Datum) (es : Entries) (kids : List Datum) :
    (seq shape (head :: .map es :: kids)).withKnownTags =
      .form (knownHead head :: .map es :: kids.map withKnownTags) := by
  rw [withKnownTags, if_pos hshape, listWithKnownTags_eq_map]

private theorem knownHead_of_mem {name : String} (h : name ∈ Tag.names) :
    knownHead (.symbol name) = .symbol name := by
  rw [knownHead, isTag, if_pos (List.contains_iff_mem.2 h)]

private theorem isPass_withKnownTags : IsPass hasAttributes (· ∈ Tag.names) withKnownTags where
  keeps v h := by
    unfold withKnownTags
    split
    · next shape head es kids =>
      have hshape : ¬shape.isCall = true := by simpa [hasAttributes] using h
      rw [if_neg hshape]
    · rfl
  rebuilds v h := by
    unfold hasAttributes at h
    split at h
    · next shape head es kids =>
      obtain ⟨name, hname, hmem, -⟩ := knownHead_eq head
      refine ⟨shape, _, name, es, rfl, hmem, ?_⟩
      rw [withKnownTags_of_hasAttributes h, hname]
      rfl
    · cases h
  copies name es kids hname _ := by
    rw [withKnownTags_of_hasAttributes rfl, knownHead_of_mem hname]

/-- Giving forms known tags leaves them with tags of the list wherever there are attribute maps to
follow, a second time changes nothing, and nothing changes where it is so from the start. -/
theorem withKnownTags_normalizes (v : Datum) :
    v.withKnownTags.withKnownTags = v.withKnownTags ∧
    (∀ w, Meets hasAttributes v.withKnownTags w → w.hasAttributes = true →
      ∃ name rest, w = .form (.symbol name :: rest) ∧ name ∈ Tag.names) ∧
    (v.withKnownTags = v ↔ IsNormal hasAttributes (· ∈ Tag.names) v) := by
  refine ⟨isPass_withKnownTags.idempotent v, ?_, isPass_withKnownTags.eq_self_iff v⟩
  intro w hw hattributes
  obtain ⟨name, es, kids, rfl, hname⟩ := isPass_withKnownTags.isNormal v w hw hattributes
  exact ⟨name, .map es :: kids, rfl, hname⟩

/-- A function under a number becomes a `div` under a `div`, and the form without attributes below
it stays. -/
theorem withKnownTags_normalizes_nested :
    ∃ v : Datum, v = .form [.int 1, .map [], .seq .fn [.symbol "foo", .map [], .call "bar" []]] ∧
      v.withKnownTags = .call "div" [.map [], .call "div" [.map [], .call "bar" []]] ∧
      Meets hasAttributes v.withKnownTags (.call "div" [.map [], .call "bar" []]) ∧
      "div" ∈ Tag.names ∧ v.withKnownTags ≠ v ∧
      v.withKnownTags.withKnownTags = v.withKnownTags := by
  obtain ⟨hagain, htags, -⟩ := withKnownTags_normalizes
    (.form [.int 1, .map [], .seq .fn [.symbol "foo", .map [], .call "bar" []]])
  have hmeets : Meets hasAttributes (form [.int 1, .map [],
      .seq .fn [.symbol "foo", .map [], .call "bar" []]]).withKnownTags
      (.call "div" [.map [], .call "bar" []]) :=
    .child rfl (List.mem_singleton.2 rfl) (.self _)
  obtain ⟨name, rest, heq, hname⟩ := htags _ hmeets rfl
  cases heq
  refine ⟨_, rfl, rfl, hmeets, hname, ?_, hagain⟩
  intro h
  cases h

/-! ## Attribute maps -/

/-- The value stands for an element: a form with a symbol at its head that is no mark of plain text
or comments. -/
def isElement (v : Datum) : Bool :=
  v.element?.isSome

private theorem isElement_eq_true_iff {v : Datum} : v.isElement = true ↔
    ∃ shape name xs, v = .seq shape (.symbol name :: xs) ∧ shape.isCall = true ∧
      Tag.isPseudo name = false := by
  constructor
  · intro h
    obtain ⟨⟨name, kids⟩, hv⟩ := Option.isSome_iff_exists.1 h
    obtain ⟨shape, xs, rfl, hshape, hname, -⟩ := eq_seq_of_element? hv
    exact ⟨shape, name, xs, rfl, hshape, hname⟩
  · rintro ⟨shape, name, xs, rfl, hshape, hname⟩
    simp [isElement, element?, hshape, hname]

private theorem isPass_withAttributes :
    IsPass isElement (Tag.isPseudo · = false) withAttributes where
  keeps v h := by
    have helement : v.element? = none := by simpa [isElement] using h
    exact withAttributes_of_element?_eq_none helement
  rebuilds v h := by
    obtain ⟨shape, name, xs, rfl, hshape, hname⟩ := isElement_eq_true_iff.1 h
    exact ⟨shape, _, name, _, rfl, hname, withAttributes_call hshape hname xs⟩
  copies name es kids hname _ := withAttributes_call rfl hname (.map es :: kids)

/-! ## Nodes -/

private theorem elementMarkup_of_element {name : String} (hname : Tag.isPseudo name = false)
    (es : Entries) (kids : List Datum) (content : Except Fault (List Node)) :
    elementMarkup name es kids content = do
      return [.element (Tag.elementName name) (← attributesOf es) (← content)] := by
  simp only [Tag.isPseudo, Bool.or_eq_false_iff, beq_eq_false_iff_ne] at hname
  rw [elementMarkup, if_neg hname.1, if_neg hname.2]

private theorem listMarkup_map {f : Datum → Datum} {xs : List Datum}
    (h : ∀ x ∈ xs, toMarkup (f x) = toMarkup x) : listMarkup (xs.map f) = listMarkup xs := by
  induction xs with
  | nil => rfl
  | cons x xs ih =>
      rw [List.map_cons, listMarkup, listMarkup, h x (by simp), ih fun y hy => h y (by simp [hy])]

private theorem toMarkup_withAttributes (v : Datum) : toMarkup v.withAttributes = toMarkup v := by
  induction v using induction_items with
  | step v ih =>
      by_cases hv : v.isElement = true
      · obtain ⟨shape, name, xs, rfl, hshape, hname⟩ := isElement_eq_true_iff.1 hv
        have hkids : listMarkup ((childrenIn (.symbol name :: xs)).map withAttributes) =
            listMarkup (childrenIn (.symbol name :: xs)) :=
          listMarkup_map fun kid hkid => ih shape _ rfl kid (mem_of_mem_childrenIn hkid)
        rw [withAttributes_call hshape hname, toMarkup_call rfl, toMarkup_call hshape,
          elementMarkup_of_element hname, elementMarkup_of_element hname, ← hkids]
        -- the map that was put in is the attributes that were taken for a missing one
        rfl
      · rw [isPass_withAttributes.keeps v (Bool.eq_false_iff.2 hv)]

/-- Giving elements attribute maps leaves every element that is met with one, changes nothing the
second time or where it is so from the start, and keeps the nodes that a value stands for. -/
theorem withAttributes_canonicalizes (v : Datum) :
    v.withAttributes.withAttributes = v.withAttributes ∧
    (∀ w, Meets isElement v.withAttributes w → w.isElement = true → w.hasAttributes = true) ∧
    toMarkup v.withAttributes = toMarkup v ∧
    (v.withAttributes = v ↔ IsNormal isElement (Tag.isPseudo · = false) v) := by
  refine ⟨isPass_withAttributes.idempotent v, ?_, toMarkup_withAttributes v,
    isPass_withAttributes.eq_self_iff v⟩
  intro w hw helement
  obtain ⟨name, es, kids, rfl, -⟩ := isPass_withAttributes.isNormal v w hw helement
  rfl

/-- A map behind `nil` is no attribute map, and stays a child behind the one that is put in. -/
theorem withAttributes_canonicalizes_shifted :
    ∃ (v : Datum) (nodes : List Node),
      v = .call "p" [.nil, .map [(.keyword "a", .keyword "b")], .seq .fn [.symbol "b"]] ∧
      v.withAttributes = .call "p" [.map [], .nil, .map [(.keyword "a", .keyword "b")],
        .call "b" [.map []]] ∧
      v.withAttributes.withAttributes = v.withAttributes ∧
      Meets isElement v.withAttributes (.call "b" [.map []]) ∧
      (call "b" [.map []]).hasAttributes = true ∧
      toMarkup v = .ok nodes ∧ toMarkup v.withAttributes = .ok nodes ∧
      nodes = [.element "p" [] [.text "\x7b:a :b\x7d", .element "b" [] []]] := by
  obtain ⟨hagain, hmaps, hnodes, -⟩ := withAttributes_canonicalizes
    (.call "p" [.nil, .map [(.keyword "a", .keyword "b")], .seq .fn [.symbol "b"]])
  have hmeets : Meets isElement (call "p" [.nil, .map [(.keyword "a", .keyword "b")],
      .seq .fn [.symbol "b"]]).withAttributes (.call "b" [.map []]) :=
    .child rfl (.tail _ (.tail _ (.head _))) (.self _)
  exact ⟨_, _, rfl, rfl, hagain, hmeets, hmaps _ hmeets rfl, rfl, hnodes.trans rfl, rfl⟩

end PageForms.Datum
