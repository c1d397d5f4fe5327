import PageForms.Proofs.Page.KnownTags

/-!
# Normalizing changes nothing but tags

The two passes that normalize a form give every element an attribute map and a known tag. With the
tags of all elements left out, the nodes of a form are the same before and behind the passes: the
same nesting, attributes, texts and comments, in the same order. The passes look at forms in two
different ways, so this needs `Datum.isRegular` of everything that is reached.
-/

namespace PageForms

mutual

/-- The node with the tags of all its elements left out. -/
def Node.eraseTags : Node → Node
  | .element _ attrs content => .element "" attrs (Node.eraseAllTags content)
  | n => n

def Node.eraseAllTags : List Node → List Node
  | [] => []
  | n :: ns => Node.eraseTags n :: Node.eraseAllTags ns

end

private theorem Node.eraseAllTags_append (ms ns : List Node) :
    Node.eraseAllTags (ms ++ ns) = Node.eraseAllTags ms ++ Node.eraseAllTags ns := by
  induction ms with
  | nil => rfl
  | cons m ms ih => rw [List.cons_append, eraseAllTags, eraseAllTags, ih, List.cons_append]

namespace Datum

mutual

/-- The value, and what is met when one goes from forms with a symbol at their head to their
children. -/
def reached : Datum → List Datum
  | .seq shape (.symbol name :: .map es :: xs) =>
    .seq shape (.symbol name :: .map es :: xs) :: (if shape.isCall then allReached xs else [])
  | .seq shape (.symbol name :: xs) =>
    .seq shape (.symbol name :: xs) :: (if shape.isCall then allReached xs else [])
  | v => [v]

def allReached : List Datum → List Datum
  | [] => []
  | x :: xs => reached x ++ allReached xs

end

/-- The two passes take the value for the same thing: a form with an attribute map has a symbol at
its head, and one that stands for a text or a comment has atoms for children. -/
def isRegular : Datum → Bool
  | .seq shape (.symbol name :: xs) =>
    !(shape.isCall && Tag.isPseudo name) ||
      (childrenIn (.symbol name :: xs)).all fun kid => !kid.isCollection
  | .seq shape (_ :: .map _ :: _) => !shape.isCall
  | _ => true

private theorem allReached_eq_flatMap (xs : List Datum) : allReached xs = xs.flatMap reached := by
  induction xs with
  | nil => rfl
  | cons x xs ih => rw [allReached, ih, List.flatMap_cons]

private theorem self_mem_reached (v : Datum) : v ∈ v.reached := by
  unfold reached
  split <;> exact List.mem_cons_self ..

private theorem mem_reached_of_child {shape : Shape} {name : String} {xs : List Datum}
    {kid v : Datum} (hshape : shape.isCall = true) (hkid : kid ∈ childrenIn (.symbol name :: xs))
    (hv : v ∈ kid.reached) : v ∈ (seq shape (.symbol name :: xs)).reached := by
  have hreached : (seq shape (.symbol name :: xs)).reached =
      .seq shape (.symbol name :: xs) :: allReached (childrenIn (.symbol name :: xs)) := by
    rcases xs with _ | ⟨x, xs⟩
    · simp [reached, hshape, childrenIn]
    · cases x <;> simp [reached, hshape, childrenIn]
  rw [hreached, allReached_eq_flatMap]
  exact List.mem_cons_of_mem _ (List.mem_flatMap.2 ⟨kid, hkid, hv⟩)

/-! ## What the passes do to one form -/

/-- An element gets an attribute map if it has none, and its children are passed over. -/
theorem withAttributes_call {shape : Shape} {name : String} (hshape : shape.isCall = true)
    (hname : Tag.isPseudo name = false) (xs : List Datum) :
    (seq shape (.symbol name :: xs)).withAttributes =
      .form (.symbol name :: .map ((attributesIn (.symbol name :: xs)).getD []) ::
        (childrenIn (.symbol name :: xs)).map withAttributes) := by
  have hcall : (shape.isCall && !Tag.isPseudo name) = true := by rw [hshape, hname]; rfl
  rw [← listWithAttributes_eq_map]
  rcases xs with _ | ⟨x, xs⟩
  · rw [withAttributes, if_pos hcall]
    · rfl
    · simp
  · cases x with
    | map es =>
        rw [withAttributes, if_pos hcall]
        rfl
    | _ =>
        rw [withAttributes, if_pos hcall]
        · rfl
        · simp

theorem withAttributes_of_element?_eq_none {v : Datum} (h : v.element? = none) :
    v.withAttributes = v := by
  unfold element? at h
  unfold withAttributes
  grind

/-- The marks of texts and comments are tags themselves. -/
theorem knownHead_of_isPseudo {name : String} (h : Tag.isPseudo name = true) :
    knownHead (.symbol name) = .symbol name := by
  simp only [Tag.isPseudo, Bool.or_eq_true, beq_iff_eq] at h
  rcases h with rfl | rfl <;> rfl

private theorem withKnownTags_of_atom {v : Datum} (h : v.isCollection = false) :
    v.withKnownTags = v := by
  cases v with
  | seq => cases h
  | _ => rfl

/-! ## Nodes without tags -/

private theorem erase_listMarkup_cons (x : Datum) (xs : List Datum) :
    Node.eraseAllTags <$> listMarkup (x :: xs) = (do
      let front ← Node.eraseAllTags <$> toMarkup x
      let rest ← Node.eraseAllTags <$> listMarkup xs
      return front ++ rest) := by
  rw [listMarkup]
  cases toMarkup x with
  | error e => rfl
  | ok front =>
      cases listMarkup xs with
      | error e => rfl
      | ok rest => exact congrArg Except.ok (Node.eraseAllTags_append front rest)

private theorem erase_listMarkup_map {f : Datum → Datum} {xs : List Datum}
    (h : ∀ x ∈ xs, Node.eraseAllTags <$> toMarkup (f x) = Node.eraseAllTags <$> toMarkup x) :
    Node.eraseAllTags <$> listMarkup (xs.map f) = Node.eraseAllTags <$> listMarkup xs := by
  induction xs with
  | nil => rfl
  | cons x xs ih =>
      rw [List.map_cons, erase_listMarkup_cons, erase_listMarkup_cons, h x (by simp),
        ih fun y hy => h y (by simp [hy])]

/-- Of an element only the attributes and the content are left. -/
theorem erase_toMarkup_call {shape : Shape} {name : String} (hshape : shape.isCall = true)
    (hname : Tag.isPseudo name = false) (xs : List Datum) :
    Node.eraseAllTags <$> toMarkup (.seq shape (.symbol name :: xs)) = (do
      let attrs ← attributesOf ((attributesIn (.symbol name :: xs)).getD [])
      let inner ← Node.eraseAllTags <$> listMarkup (childrenIn (.symbol name :: xs))
      return [.element "" attrs inner]) := by
  simp only [Tag.isPseudo, Bool.or_eq_false_iff, beq_eq_false_iff_ne] at hname
  rw [toMarkup_call hshape]
  unfold elementMarkup
  rw [if_neg hname.1, if_neg hname.2]
  cases attributesOf ((attributesIn (.symbol name :: xs)).getD []) with
  | error e => rfl
  | ok attrs => cases listMarkup (childrenIn (.symbol name :: xs)) <;> rfl

/-! ## Both passes -/

/-- Behind both passes an element has a known tag, the same attributes, and its children behind both
passes. -/
theorem normalized_call {shape : Shape} {name : String} (hshape : shape.isCall = true)
    (hname : Tag.isPseudo name = false) (xs : List Datum) :
    ∃ tag, Tag.isPseudo tag = false ∧
      (seq shape (.symbol name :: xs)).withAttributes.withKnownTags =
        .form (.symbol tag :: .map ((attributesIn (.symbol name :: xs)).getD []) ::
          (childrenIn (.symbol name :: xs)).map fun v => v.withAttributes.withKnownTags) := by
  obtain ⟨tag, htag, -, hpseudo⟩ := knownHead_eq (.symbol name)
  refine ⟨tag, hpseudo.trans hname, ?_⟩
  rw [withAttributes_call hshape hname, withKnownTags, if_pos (by rfl), htag,
    listWithKnownTags_eq_map, List.map_map]
  rfl

/-- A regular value that stands for no element has the same nodes behind the second pass. -/
theorem toMarkup_withKnownTags {v : Datum} (hv : v.isRegular = true) (h : v.element? = none) :
    toMarkup v.withKnownTags = toMarkup v := by
  rcases withKnownTags_cases v with ⟨shape, head, es, xs, rfl, hshape, heq⟩ | ⟨heq, -⟩
  · unfold isRegular at hv
    split at hv
    · -- with an attribute map it is a text or a comment, which the pass only copies
      next shape name xs' hform =>
      cases hform
      have hname := isPseudo_of_element?_eq_none hshape h
      rw [hshape, hname] at hv
      have hxs : xs.map withKnownTags = xs.map id := by
        apply List.map_congr_left
        intro x hx
        exact withKnownTags_of_atom (by simpa using List.all_eq_true.1 hv x hx)
      rw [heq, knownHead_of_isPseudo hname, hxs, List.map_id, toMarkup_call rfl,
        toMarkup_call hshape]
    · next hform =>
      cases hform
      rw [hshape] at hv
      cases hv
    · next hform => exact absurd rfl (hform shape head es xs)
  · rw [heq]

/-- If everything that is reached from a value is regular, its nodes before and behind the two
passes are equal once the tags are left out; and if there are none, it is for the same reason. -/
theorem erase_toMarkup_normalized (v : Datum) (h : ∀ w ∈ v.reached, w.isRegular = true) :
    Node.eraseAllTags <$> toMarkup v.withAttributes.withKnownTags =
      Node.eraseAllTags <$> toMarkup v := by
  induction v using induction_items with
  | step v ih =>
      cases helement : v.element? with
      | none =>
          rw [withAttributes_of_element?_eq_none helement,
            toMarkup_withKnownTags (h v (self_mem_reached v)) helement]
      | some e =>
          obtain ⟨name, kids⟩ := e
          obtain ⟨shape, xs, rfl, hshape, hname, rfl⟩ := eq_seq_of_element? helement
          have hkids : ∀ kid ∈ childrenIn (.symbol name :: xs),
              Node.eraseAllTags <$> toMarkup kid.withAttributes.withKnownTags =
                Node.eraseAllTags <$> toMarkup kid := by
            intro kid hkid
            apply ih shape _ rfl kid (mem_of_mem_childrenIn hkid)
            intro w hw
            exact h w (mem_reached_of_child hshape hkid hw)
          obtain ⟨tag, htag, heq⟩ := normalized_call hshape hname xs
          rw [heq, erase_toMarkup_call rfl htag, erase_toMarkup_call hshape hname,
            ← erase_listMarkup_map hkids]
          rfl

/-- An unknown tag without attributes, over nothing, an anonymous function, a comment with
attributes, and two values that become texts. -/
theorem erase_toMarkup_normalized_mixed :
    ∃ v nodes, v = .call "foo" [.nil,
        .seq .fn [.symbol "bar", .map [(.keyword "a", .keyword "b")]],
        .call "$comment" [.map [], .str "c", .symbol "d"], .form [.str "y", .call "z" []],
        .map []] ∧
      (∀ w ∈ v.reached, w.isRegular = true) ∧
      toMarkup v = .ok [.element "foo" [] [.element "bar" [("a", some "b")] [], .comment "cd",
        .text "(\x22y\x22 (z))", .text "\x7b\x7d"]] ∧
      toMarkup v.withAttributes.withKnownTags = .ok nodes ∧
      Node.eraseAllTags nodes = [.element "" [] [.element "" [("a", some "b")] [], .comment "cd",
        .text "(\x22y\x22 (z))", .text "\x7b\x7d"]] := by
  obtain ⟨v, hv⟩ : ∃ v, v = Datum.call "foo" [.nil,
    .seq .fn [.symbol "bar", .map [(.keyword "a", .keyword "b")]],
    .call "$comment" [.map [], .str "c", .symbol "d"], .form [.str "y", .call "z" []], .map []] :=
      ⟨_, rfl⟩
  have hregular : ∀ w ∈ v.reached, w.isRegular = true := by
    rw [hv]
    decide +kernel
  have hnodes : toMarkup v = .ok [.element "foo" [] [.element "bar" [("a", some "b")] [],
      .comment "cd", .text "(\x22y\x22 (z))", .text "\x7b\x7d"]] := by
    rw [hv]
    rfl
  have herased := erase_toMarkup_normalized v hregular
  rw [hnodes] at herased
  obtain ⟨nodes, hnormalized, hnodes'⟩ := map_eq_ok herased
  exact ⟨v, nodes, hv, hregular, hnodes, hnormalized, hnodes'⟩

end Datum

end PageForms
