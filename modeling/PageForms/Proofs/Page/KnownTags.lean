import PageForms.Page.Canonical
import PageForms.Proofs.Page.Nodes

/-!
# Which elements have registered tags

Two passes are to leave only registered tags in a page: one gives every form with a symbol at its
head an attribute map, the other turns every form with an attribute map and an unknown head into a
`div`. Neither descends where it does not act, and they do not act on the same forms. A form with an
attribute map but no symbol at its head stops the first pass and not the second, so that forms
without an attribute map below it reach the page as they are.

`Datum.tagsKnown` is the exact condition under which all elements have registered tags.
-/

namespace PageForms

def Tag.isRegistered (tag : String) : Bool :=
  (Tag.names.map Tag.elementName).contains tag

private theorem Tag.isRegistered_elementName {name : String} (h : name ∈ Tag.names) :
    Tag.isRegistered (Tag.elementName name) = true := by
  rw [Tag.isRegistered, List.contains_iff_mem]
  exact List.mem_map_of_mem h

mutual

def Node.tagsRegistered : Node → Bool
  | .element tag _ content => Tag.isRegistered tag && Node.allTagsRegistered content
  | _ => true

def Node.allTagsRegistered : List Node → Bool
  | [] => true
  | n :: ns => Node.tagsRegistered n && Node.allTagsRegistered ns

end

private theorem Node.allTagsRegistered_eq_all (ns : List Node) :
    Node.allTagsRegistered ns = ns.all Node.tagsRegistered := by
  induction ns with
  | nil => rfl
  | cons n ns ih => rw [Node.allTagsRegistered, ih, List.all_cons]

namespace Datum

def isPseudoHead : Datum → Bool
  | .symbol name => Tag.isPseudo name
  | _ => false

mutual

/-- Taken as it is, the value has only elements with registered tags. -/
def tagsKnownAsIs : Datum → Bool
  | .seq shape (.symbol name :: .map _ :: xs) | .seq shape (.symbol name :: xs) =>
    !(shape.isCall && !Tag.isPseudo name) ||
      (Tag.isRegistered (Tag.elementName name) && allTagsKnownAsIs xs)
  | _ => true

def allTagsKnownAsIs : List Datum → Bool
  | [] => true
  | x :: xs => tagsKnownAsIs x && allTagsKnownAsIs xs

end

mutual

/-- Where only the second pass reaches, the value comes to elements with registered tags: the pass
goes on as long as there are attribute maps, and what is behind is taken as it is. -/
def tagsKnownMapped : Datum → Bool
  | .seq shape (head :: .map _ :: xs) =>
    !(shape.isCall && !head.isPseudoHead) || allTagsKnownMapped xs
  | v => v.tagsKnownAsIs

def allTagsKnownMapped : List Datum → Bool
  | [] => true
  | x :: xs => tagsKnownMapped x && allTagsKnownMapped xs

end

mutual

/-- The value comes to elements with registered tags: the first pass goes on as long as there are
symbols in front, and only the second one reaches what is behind. -/
def tagsKnown : Datum → Bool
  | .seq shape (.symbol name :: .map _ :: xs) | .seq shape (.symbol name :: xs) =>
    !(shape.isCall && !Tag.isPseudo name) || allTagsKnown xs
  | v => v.tagsKnownMapped

def allTagsKnown : List Datum → Bool
  | [] => true
  | x :: xs => tagsKnown x && allTagsKnown xs

end

mutual

/-- Wherever symbols at the heads lead, only calls with a symbol at their head have an attribute
map. -/
def headsNamed : Datum → Bool
  | .seq _ (.symbol _ :: xs) => allHeadsNamed xs
  | .seq shape (_ :: .map _ :: _) => !shape.isCall
  | _ => true

def allHeadsNamed : List Datum → Bool
  | [] => true
  | x :: xs => headsNamed x && allHeadsNamed xs

end

private theorem allTagsKnownAsIs_eq_all (xs : List Datum) :
    allTagsKnownAsIs xs = xs.all tagsKnownAsIs := by
  induction xs with
  | nil => rfl
  | cons x xs ih => rw [allTagsKnownAsIs, ih, List.all_cons]

private theorem allTagsKnownMapped_eq_all (xs : List Datum) :
    allTagsKnownMapped xs = xs.all tagsKnownMapped := by
  induction xs with
  | nil => rfl
  | cons x xs ih => rw [allTagsKnownMapped, ih, List.all_cons]

private theorem allTagsKnown_eq_all (xs : List Datum) : allTagsKnown xs = xs.all tagsKnown := by
  induction xs with
  | nil => rfl
  | cons x xs ih => rw [allTagsKnown, ih, List.all_cons]

private theorem allHeadsNamed_eq_all (xs : List Datum) : allHeadsNamed xs = xs.all headsNamed := by
  induction xs with
  | nil => rfl
  | cons x xs ih => rw [allHeadsNamed, ih, List.all_cons]

theorem listWithAttributes_eq_map (xs : List Datum) :
    listWithAttributes xs = xs.map withAttributes := by
  induction xs with
  | nil => rfl
  | cons x xs ih => rw [listWithAttributes, ih, List.map_cons]

theorem listWithKnownTags_eq_map (xs : List Datum) :
    listWithKnownTags xs = xs.map withKnownTags := by
  induction xs with
  | nil => rfl
  | cons x xs ih => rw [listWithKnownTags, ih, List.map_cons]

/-- To prove something of every value it is enough to prove it of a value whose items have it. -/
theorem induction_items {p : Datum → Prop}
    (step : ∀ v, (∀ shape xs, v = .seq shape xs → ∀ x ∈ xs, p x) → p v) (v : Datum) : p v := by
  apply step v
  intro shape xs hv x hx
  have : sizeOf x < sizeOf v := by
    have hlt := List.sizeOf_lt_of_mem hx
    rw [hv, seq.sizeOf_spec]
    omega
  exact induction_items step x
termination_by sizeOf v

/-! ## Nodes of values -/

/-- The function tells whether the nodes of a value, once it has been through `f`, have registered
tags. -/
def Decides (f : Datum → Datum) (known : Datum → Bool) (v : Datum) : Prop :=
  ∀ nodes, toMarkup (f v) = .ok nodes → nodes.all Node.tagsRegistered = known v

theorem listMarkup_all {f : Datum → Datum} {known : Datum → Bool} {xs : List Datum}
    (hxs : ∀ x ∈ xs, Decides f known x) {nodes : List Node}
    (h : listMarkup (xs.map f) = .ok nodes) : nodes.all Node.tagsRegistered = xs.all known := by
  induction xs generalizing nodes with
  | nil =>
      cases h
      rfl
  | cons x xs ih =>
      rw [List.map_cons] at h
      obtain ⟨front, rest, hfront, hrest, rfl⟩ := listMarkup_cons h
      rw [List.all_append, List.all_cons, hxs x (by simp) front hfront,
        ih (fun y hy => hxs y (by simp [hy])) hrest]

private theorem all_of_element?_eq_none {v : Datum} {nodes : List Node} (h : v.element? = none)
    (hnodes : toMarkup v = .ok nodes) : nodes.all Node.tagsRegistered = true := by
  rw [List.all_eq_true]
  intro n hn
  obtain ⟨s, rfl | rfl⟩ := toMarkup_of_element?_eq_none h hnodes n hn <;> rfl

theorem all_singleton_element (tag : String) (attrs : Attributes) (inner : List Node) :
    [Node.element tag attrs inner].all Node.tagsRegistered =
      (Tag.isRegistered tag && inner.all Node.tagsRegistered) := by
  rw [List.all_cons, List.all_nil, Bool.and_true, Node.tagsRegistered,
    Node.allTagsRegistered_eq_all]

/-! ## Values taken as they are -/

theorem tagsKnownAsIs_symbol (shape : Shape) (name : String) (xs : List Datum) :
    tagsKnownAsIs (.seq shape (.symbol name :: xs)) =
      (!(shape.isCall && !Tag.isPseudo name) || (Tag.isRegistered (Tag.elementName name) &&
        (childrenIn (.symbol name :: xs)).all tagsKnownAsIs)) := by
  rw [← allTagsKnownAsIs_eq_all]
  rcases xs with _ | ⟨x, xs⟩
  · rfl
  · cases x <;> rfl

private theorem tagsKnownAsIs_of_element? {v : Datum} {name : String} {kids : List Datum}
    (h : v.element? = some (name, kids)) :
    v.tagsKnownAsIs = (Tag.isRegistered (Tag.elementName name) && kids.all tagsKnownAsIs) := by
  obtain ⟨shape, xs, rfl, hshape, hname, rfl⟩ := eq_seq_of_element? h
  rw [tagsKnownAsIs_symbol, hshape, hname]
  rfl

private theorem tagsKnownAsIs_of_element?_eq_none {v : Datum} (h : v.element? = none) :
    v.tagsKnownAsIs = true := by
  unfold element? at h
  unfold tagsKnownAsIs
  grind

/-- The elements of a value that is taken as it is. -/
theorem decides_tagsKnownAsIs (v : Datum) : Decides id tagsKnownAsIs v := by
  induction v using induction_items with
  | step v ih =>
      intro nodes hnodes
      rw [id] at hnodes
      cases helement : v.element? with
      | none =>
          rw [all_of_element?_eq_none helement hnodes, tagsKnownAsIs_of_element?_eq_none helement]
      | some e =>
          obtain ⟨name, kids⟩ := e
          obtain ⟨shape, xs, hv, -, -, hkids⟩ := eq_seq_of_element? helement
          obtain ⟨attrs, inner, hinner, rfl⟩ := toMarkup_of_element? helement hnodes
          have hall : ∀ k ∈ kids, Decides id tagsKnownAsIs k := by
            intro k hk
            apply ih shape _ hv
            rw [hkids] at hk
            exact mem_of_mem_childrenIn hk
          rw [all_singleton_element, tagsKnownAsIs_of_element? helement,
            listMarkup_all hall (by rwa [List.map_id])]

/-! ## The second pass -/

/-- The head that the second pass leaves is the symbol of a tag. -/
theorem knownHead_eq (head : Datum) :
    ∃ name, knownHead head = .symbol name ∧ name ∈ Tag.names ∧
      Tag.isPseudo name = head.isPseudoHead := by
  unfold knownHead
  split
  · next htag =>
    cases head with
    | symbol name => exact ⟨name, rfl, List.contains_iff_mem.1 htag, rfl⟩
    | _ => cases htag
  · next htag =>
    refine ⟨"div", rfl, by decide, ?_⟩
    cases head with
    | symbol name =>
        cases hpseudo : Tag.isPseudo name with
        | false =>
            rw [isPseudoHead, hpseudo]
            decide
        | true =>
            simp only [Tag.isPseudo, Bool.or_eq_true, beq_iff_eq] at hpseudo
            rcases hpseudo with rfl | rfl <;> exact absurd (by decide) htag
    | _ => rfl

theorem withKnownTags_cases (v : Datum) :
    (∃ shape head es xs, v = .seq shape (head :: .map es :: xs) ∧ shape.isCall = true ∧
      v.withKnownTags = .form (knownHead head :: .map es :: xs.map withKnownTags)) ∨
    (v.withKnownTags = v ∧ v.tagsKnownMapped = v.tagsKnownAsIs) := by
  unfold withKnownTags
  split
  · next shape head es xs =>
    split
    · next hshape =>
      refine .inl ⟨shape, head, es, xs, rfl, hshape, ?_⟩
      rw [listWithKnownTags_eq_map]
    · next hshape =>
      refine .inr ⟨rfl, ?_⟩
      have hnone : (seq shape (head :: .map es :: xs)).element? = none := by
        unfold element?
        split
        · next heq =>
          cases heq
          simp [hshape]
        · rfl
      rw [tagsKnownAsIs_of_element?_eq_none hnone, tagsKnownMapped]
      simp [hshape]
  · next v hno =>
    refine .inr ⟨rfl, ?_⟩
    unfold tagsKnownMapped
    split
    · next shape head es xs => exact absurd rfl (hno shape head es xs)
    · rfl

/-- An element with an attribute map and the symbol of a tag at its head. -/
theorem all_of_mapped {name : String} {es : Entries} {xs : List Datum} {nodes : List Node}
    {known : Datum → Bool} {f : Datum → Datum} (hname : name ∈ Tag.names)
    (hxs : ∀ x ∈ xs, Decides f known x)
    (h : toMarkup (.form (.symbol name :: .map es :: xs.map f)) = .ok nodes) :
    nodes.all Node.tagsRegistered = (Tag.isPseudo name || xs.all known) := by
  cases hpseudo : Tag.isPseudo name with
  | true =>
      have hnone : (form (.symbol name :: .map es :: xs.map f)).element? = none := by
        simp [element?, hpseudo]
      rw [all_of_element?_eq_none hnone h, Bool.true_or]
  | false =>
      have helement : (form (.symbol name :: .map es :: xs.map f)).element? =
          some (name, xs.map f) := by
        simp [element?, hpseudo, childrenIn, Shape.isCall]
      obtain ⟨attrs, inner, hinner, rfl⟩ := toMarkup_of_element? helement h
      rw [all_singleton_element, Tag.isRegistered_elementName hname, listMarkup_all hxs hinner,
        Bool.true_and, Bool.false_or]

/-- The elements of a value behind the second pass. -/
theorem decides_tagsKnownMapped (v : Datum) : Decides withKnownTags tagsKnownMapped v := by
  induction v using induction_items with
  | step v ih =>
      intro nodes hnodes
      rcases withKnownTags_cases v with ⟨shape, head, es, xs, rfl, hshape, heq⟩ | ⟨heq, hknown⟩
      · obtain ⟨name, hname, hmem, hpseudo⟩ := knownHead_eq head
        rw [heq, hname] at hnodes
        have hxs : ∀ x ∈ xs, Decides withKnownTags tagsKnownMapped x := by
          intro x hx
          exact ih _ _ rfl x (by simp [hx])
        rw [all_of_mapped hmem hxs hnodes, tagsKnownMapped, hshape, hpseudo,
          allTagsKnownMapped_eq_all, Bool.true_and, Bool.not_not]
      · rw [heq] at hnodes
        rw [hknown]
        exact decides_tagsKnownAsIs v nodes hnodes

/-! ## Both passes -/

private theorem tagsKnown_symbol (shape : Shape) (name : String) (xs : List Datum) :
    tagsKnown (.seq shape (.symbol name :: xs)) =
      (!(shape.isCall && !Tag.isPseudo name) ||
        (childrenIn (.symbol name :: xs)).all tagsKnown) := by
  rw [← allTagsKnown_eq_all]
  rcases xs with _ | ⟨x, xs⟩
  · rfl
  · cases x <;> rfl

private theorem tagsKnownMapped_symbol {shape : Shape} {name : String}
    (h : (shape.isCall && !Tag.isPseudo name) = false) (xs : List Datum) :
    tagsKnownMapped (.seq shape (.symbol name :: xs)) = true := by
  have hasIs : tagsKnownAsIs (.seq shape (.symbol name :: xs)) = true := by
    rw [tagsKnownAsIs_symbol, h]
    rfl
  unfold tagsKnownMapped
  split
  · next heq =>
    cases heq
    rw [isPseudoHead, h]
    rfl
  · exact hasIs

theorem withAttributes_cases (v : Datum) :
    (∃ shape name xs es, v = .seq shape (.symbol name :: xs) ∧ shape.isCall = true ∧
      Tag.isPseudo name = false ∧ v.withAttributes = .form (.symbol name :: .map es ::
        (childrenIn (.symbol name :: xs)).map withAttributes)) ∨
    (v.withAttributes = v ∧ v.tagsKnown = v.tagsKnownMapped) := by
  unfold withAttributes
  split
  · next shape name es xs =>
    split
    · next hcall =>
      simp only [Bool.and_eq_true, Bool.not_eq_true'] at hcall
      refine .inl ⟨shape, name, .map es :: xs, es, rfl, hcall.1, hcall.2, ?_⟩
      rw [listWithAttributes_eq_map]
      rfl
    · next hcall =>
      rw [Bool.not_eq_true] at hcall
      refine .inr ⟨rfl, ?_⟩
      rw [tagsKnown_symbol, tagsKnownMapped_symbol hcall, hcall]
      rfl
  · next shape name xs hno =>
    split
    · next hcall =>
      simp only [Bool.and_eq_true, Bool.not_eq_true'] at hcall
      refine .inl ⟨shape, name, xs, [], rfl, hcall.1, hcall.2, ?_⟩
      rw [listWithAttributes_eq_map]
      rcases xs with _ | ⟨x, xs⟩
      · rfl
      · cases x with
        | map es => exact absurd rfl (hno es xs)
        | _ => rfl
    · next hcall =>
      rw [Bool.not_eq_true] at hcall
      refine .inr ⟨rfl, ?_⟩
      rw [tagsKnown_symbol, tagsKnownMapped_symbol hcall, hcall]
      rfl
  · next v hmap hno =>
    refine .inr ⟨rfl, ?_⟩
    unfold tagsKnown
    split
    · next shape name es xs => exact absurd rfl (hmap shape name es xs)
    · next shape name xs _ => exact absurd rfl (hno shape name xs)
    · rfl

/-- The elements of a value behind both passes. -/
theorem decides_tagsKnown (v : Datum) :
    Decides (fun v => v.withAttributes.withKnownTags) tagsKnown v := by
  induction v using induction_items with
  | step v ih =>
      intro nodes hnodes
      simp only at hnodes
      rcases withAttributes_cases v with ⟨shape, name, xs, es, rfl, hshape, hname, heq⟩ |
        ⟨heq, hknown⟩
      · have hkids : ∀ k ∈ childrenIn (.symbol name :: xs),
            Decides (fun v => v.withAttributes.withKnownTags) tagsKnown k := by
          intro k hk
          exact ih _ _ rfl k (mem_of_mem_childrenIn hk)
        obtain ⟨tag, htag, hmem, hpseudo⟩ := knownHead_eq (.symbol name)
        have hform : (form (.symbol name :: .map es ::
            (childrenIn (.symbol name :: xs)).map withAttributes)).withKnownTags =
              .form (.symbol tag :: .map es :: (childrenIn (.symbol name :: xs)).map
                fun v => v.withAttributes.withKnownTags) := by
          rw [withKnownTags, if_pos (by rfl), htag, listWithKnownTags_eq_map, List.map_map]
          rfl
        rw [heq, hform] at hnodes
        rw [all_of_mapped hmem hkids hnodes, hpseudo, isPseudoHead, hname, tagsKnown_symbol, hshape,
          hname]
        rfl
      · rw [heq] at hnodes
        rw [hknown]
        exact decides_tagsKnownMapped v nodes hnodes

/-- If only calls with a symbol at their head have an attribute map, the two passes act on the same
forms. -/
theorem tagsKnown_of_headsNamed (v : Datum) (h : v.headsNamed = true) : v.tagsKnown = true := by
  induction v using induction_items with
  | step v ih =>
      unfold headsNamed at h
      split at h
      · next shape name xs =>
        rw [allHeadsNamed_eq_all, List.all_eq_true] at h
        have hkids : (childrenIn (.symbol name :: xs)).all tagsKnown = true := by
          rw [List.all_eq_true]
          intro k hk
          have hmem := mem_of_mem_childrenIn hk
          refine ih shape _ rfl k hmem ?_
          rcases List.mem_cons.1 hmem with rfl | hk
          · rfl
          · exact h k hk
        rw [tagsKnown_symbol, hkids, Bool.or_true]
      · next shape head es xs hno =>
        rcases withAttributes_cases (.seq shape (head :: .map es :: xs)) with
          ⟨_, name, _, _, heq, -⟩ | ⟨-, hknown⟩
        · cases heq
          exact absurd rfl (hno name)
        · rw [Bool.not_eq_true'] at h
          rw [hknown, tagsKnownMapped, h]
          rfl
      · next hno hmap =>
        have hnone : v.element? = none := by
          unfold element?
          split
          · next shape name xs => exact absurd rfl (hno shape name xs)
          · rfl
        rcases withAttributes_cases v with ⟨shape, name, xs, _, heq, -⟩ | ⟨-, hknown⟩
        · exact absurd heq (hno shape name xs)
        · rcases withKnownTags_cases v with ⟨shape, head, es, xs, heq, -⟩ | ⟨-, hasIs⟩
          · exact absurd heq (hmap shape head es xs)
          · rw [hknown, hasIs, tagsKnownAsIs_of_element?_eq_none hnone]

end Datum

end PageForms
