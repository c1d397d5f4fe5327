import PageForms.Page.Convert
import PageForms.Proofs.Except

/-!
# The nodes of forms

A value stands for an element exactly if it is a form with a symbol at its head that is not one of
the marks of plain text and comments; every other value stands for nodes without elements.
-/

namespace PageForms.Datum

theorem listMarkup_append {xs ys : List Datum} {nodes : List Node}
    (h : listMarkup (xs ++ ys) = .ok nodes) :
    ∃ front rest, listMarkup xs = .ok front ∧ listMarkup ys = .ok rest ∧ nodes = front ++ rest := by
  induction xs generalizing nodes with
  | nil => exact ⟨[], nodes, rfl, h, rfl⟩
  | cons x xs ih =>
      rw [List.cons_append, listMarkup] at h
      obtain ⟨first, hfirst, h⟩ := bind_eq_ok h
      obtain ⟨more, hmore, h⟩ := bind_eq_ok h
      cases h
      obtain ⟨front, rest, hfront, hrest, rfl⟩ := ih hmore
      refine ⟨first ++ front, rest, ?_, hrest, by rw [List.append_assoc]⟩
      rw [listMarkup, hfirst, ok_bind, hfront]
      rfl

theorem listMarkup_cons {x : Datum} {xs : List Datum} {nodes : List Node}
    (h : listMarkup (x :: xs) = .ok nodes) :
    ∃ front rest, toMarkup x = .ok front ∧ listMarkup xs = .ok rest ∧ nodes = front ++ rest := by
  rw [listMarkup] at h
  obtain ⟨front, hfront, h⟩ := bind_eq_ok h
  obtain ⟨rest, hrest, h⟩ := bind_eq_ok h
  cases h
  exact ⟨front, rest, hfront, hrest, rfl⟩

theorem exists_of_mem_listMarkup {xs : List Datum} {nodes : List Node}
    (h : listMarkup xs = .ok nodes) :
    ∀ n ∈ nodes, ∃ x ∈ xs, ∃ ns, toMarkup x = .ok ns ∧ n ∈ ns := by
  induction xs generalizing nodes with
  | nil =>
      cases h
      simp
  | cons x xs ih =>
      obtain ⟨front, rest, hfront, hrest, rfl⟩ := listMarkup_cons h
      intro n hn
      rcases List.mem_append.1 hn with hn | hn
      · exact ⟨x, by simp, front, hfront, hn⟩
      · obtain ⟨y, hy, ns, hns, hn⟩ := ih hrest n hn
        exact ⟨y, by simp [hy], ns, hns, hn⟩

/-- The nodes of a form with a symbol at its head. -/
theorem toMarkup_call {shape : Shape} (h : shape.isCall = true) (name : String)
    (xs : List Datum) :
    toMarkup (.seq shape (.symbol name :: xs)) =
      elementMarkup name ((attributesIn (.symbol name :: xs)).getD [])
        (childrenIn (.symbol name :: xs)) (listMarkup (childrenIn (.symbol name :: xs))) := by
  cases shape with
  | form | fn =>
      rcases xs with _ | ⟨x, xs⟩
      · rfl
      · cases x <;> rfl
  | _ => cases h

theorem elementMarkup_eq_ok {name : String} {es : Entries} {kids : List Datum}
    {content : Except Fault (List Node)} {nodes : List Node} (hname : Tag.isPseudo name = false)
    (h : elementMarkup name es kids content = .ok nodes) :
    ∃ attrs inner, content = .ok inner ∧ nodes = [.element (Tag.elementName name) attrs inner] := by
  simp only [Tag.isPseudo, Bool.or_eq_false_iff, beq_eq_false_iff_ne] at hname
  unfold elementMarkup at h
  rw [if_neg hname.1, if_neg hname.2] at h
  obtain ⟨attrs, -, h⟩ := bind_eq_ok h
  obtain ⟨inner, hinner, h⟩ := bind_eq_ok h
  cases h
  exact ⟨attrs, inner, hinner, rfl⟩

theorem mem_of_mem_childrenIn {xs : List Datum} {x : Datum} (h : x ∈ childrenIn xs) : x ∈ xs := by
  unfold childrenIn at h
  split at h
  · simp [h]
  · simp [h]
  · cases h

def element? : Datum → Option (String × List Datum)
  | .seq shape (.symbol name :: xs) =>
    if shape.isCall && !Tag.isPseudo name then some (name, childrenIn (.symbol name :: xs))
    else none
  | _ => none

theorem eq_seq_of_element? {v : Datum} {name : String} {kids : List Datum}
    (h : v.element? = some (name, kids)) :
    ∃ shape xs, v = .seq shape (.symbol name :: xs) ∧ shape.isCall = true ∧
      Tag.isPseudo name = false ∧ kids = childrenIn (.symbol name :: xs) := by
  unfold element? at h
  split at h
  · next shape name' xs =>
    split at h
    · next hcall =>
      cases h
      simp only [Bool.and_eq_true, Bool.not_eq_true'] at hcall
      exact ⟨shape, xs, rfl, hcall.1, hcall.2, rfl⟩
    · cases h
  · cases h

/-- What stands for an element is one element, and its content is the nodes of the children. -/
theorem toMarkup_of_element? {v : Datum} {name : String} {kids : List Datum} {nodes : List Node}
    (h : v.element? = some (name, kids)) (hnodes : toMarkup v = .ok nodes) :
    ∃ attrs inner, listMarkup kids = .ok inner ∧
      nodes = [.element (Tag.elementName name) attrs inner] := by
  obtain ⟨shape, xs, rfl, hshape, hname, rfl⟩ := eq_seq_of_element? h
  rw [toMarkup_call hshape] at hnodes
  exact elementMarkup_eq_ok hname hnodes

private theorem elementMarkup_of_isPseudo {name : String} {es : Entries} {kids : List Datum}
    {content : Except Fault (List Node)} {nodes : List Node} (hname : Tag.isPseudo name = true)
    (h : elementMarkup name es kids content = .ok nodes) :
    ∀ n ∈ nodes, ∃ s, n = .text s ∨ n = .comment s := by
  simp only [Tag.isPseudo, Bool.or_eq_true, beq_iff_eq] at hname
  unfold elementMarkup at h
  split at h
  · obtain ⟨s, -, h⟩ := bind_eq_ok h
    cases h
    exact fun n hn => ⟨s, .inl (List.mem_singleton.1 hn)⟩
  · next htext =>
    rw [if_pos (hname.resolve_left htext)] at h
    obtain ⟨s, -, h⟩ := bind_eq_ok h
    cases h
    exact fun n hn => ⟨s, .inr (List.mem_singleton.1 hn)⟩

theorem isPseudo_of_element?_eq_none {shape : Shape} {name : String} {xs : List Datum}
    (hshape : shape.isCall = true) (h : (seq shape (.symbol name :: xs)).element? = none) :
    Tag.isPseudo name = true := by
  simpa [element?, hshape] using h

/-- What stands for no element has none among its nodes. -/
theorem toMarkup_of_element?_eq_none {v : Datum} {nodes : List Node} (h : v.element? = none)
    (hnodes : toMarkup v = .ok nodes) : ∀ n ∈ nodes, ∃ s, n = .text s ∨ n = .comment s := by
  have htext : ∀ {x : Except Fault String}, (do return [Node.text (← x)]) = .ok nodes →
      ∀ n ∈ nodes, ∃ s, n = .text s ∨ n = .comment s := by
    intro x hx
    obtain ⟨s, -, hx⟩ := bind_eq_ok hx
    cases hx
    exact fun n hn => ⟨s, .inl (List.mem_singleton.1 hn)⟩
  unfold toMarkup at hnodes
  split at hnodes
  · cases hnodes
    simp
  · next s =>
    cases hnodes
    exact fun n hn => ⟨s, .inl (List.mem_singleton.1 hn)⟩
  · exact elementMarkup_of_isPseudo (isPseudo_of_element?_eq_none rfl h) hnodes
  · exact elementMarkup_of_isPseudo (isPseudo_of_element?_eq_none rfl h) hnodes
  · exact elementMarkup_of_isPseudo (isPseudo_of_element?_eq_none rfl h) hnodes
  · exact elementMarkup_of_isPseudo (isPseudo_of_element?_eq_none rfl h) hnodes
  · exact htext hnodes
  · exact htext hnodes
  · exact htext hnodes

end PageForms.Datum
