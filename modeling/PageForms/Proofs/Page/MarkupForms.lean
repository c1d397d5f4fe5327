import PageForms.Proofs.Page.Nodes

/-!
# From markup to forms and back

Turning nodes into forms and these back into nodes gives the nodes one started with. What would be
lost is ruled out by `Node.isConvertible`: capitals in tags, tags that are themselves the symbols of
texts, comments or renamed tags, and scripts that hold forms.
-/

namespace PageForms

namespace Tag

/-- The symbols that do not stand for the element of the same name. -/
def reserved : List String :=
  text :: comment :: clashing.map (mark ++ ·)

private theorem symbolName_cases {tag : String} (h : Text.lower tag = tag) :
    (tag ∈ clashing ∧ symbolName tag = mark ++ tag) ∨ (tag ∉ clashing ∧ symbolName tag = tag) := by
  unfold symbolName
  simp only [h, List.contains_iff_mem]
  split
  · next hmem => exact .inl ⟨hmem, rfl⟩
  · next hmem => exact .inr ⟨hmem, rfl⟩

private theorem elementName_symbolName {tag : String} (hlower : Text.lower tag = tag)
    (hreserved : tag ∉ reserved) : elementName (symbolName tag) = tag := by
  rcases symbolName_cases hlower with ⟨hmem, hname⟩ | ⟨-, hname⟩
  · have hall : clashing.all (fun t => elementName (mark ++ t) == t) = true := by decide
    rw [hname]
    exact beq_iff_eq.1 (List.all_eq_true.1 hall tag hmem)
  · rw [hname]
    have hnone : clashing.find? (fun t => mark ++ t == tag) = none := by
      rw [List.find?_eq_none]
      intro t ht heq
      apply hreserved
      rw [← beq_iff_eq.1 heq]
      exact List.mem_cons_of_mem _ (List.mem_cons_of_mem _ (List.mem_map_of_mem ht))
    rw [elementName, hnone]

private theorem isPseudo_symbolName {tag : String} (hlower : Text.lower tag = tag)
    (hreserved : tag ∉ reserved) : isPseudo (symbolName tag) = false := by
  rcases symbolName_cases hlower with ⟨hmem, hname⟩ | ⟨-, hname⟩
  · have hall : clashing.all (fun t => !isPseudo (mark ++ t)) = true := by decide
    rw [hname]
    simpa using List.all_eq_true.1 hall tag hmem
  · rw [hname, isPseudo, Bool.or_eq_false_iff, beq_eq_false_iff_ne, beq_eq_false_iff_ne]
    constructor
    · rintro rfl
      exact hreserved (List.mem_cons_self ..)
    · rintro rfl
      exact hreserved (List.mem_cons_of_mem _ (List.mem_cons_self ..))

end Tag

namespace Datum

private theorem attributesOf_attributeEntry {attrs : Attributes} (h : (attrs.map Prod.fst).Nodup) :
    attributesOf (attrs.map attributeEntry) = .ok attrs := by
  have hsets : ∀ e ∈ attrs.map attributeEntry, setsAttribute e = true := by
    intro e he
    obtain ⟨⟨name, value⟩, -, rfl⟩ := List.mem_map.1 he
    cases value <;> rfl
  unfold attributesOf
  rw [List.filter_eq_self.2 hsets, mapM_map_of_forall, ok_bind, Named.ofList_of_nodup h]
  · rfl
  · rintro ⟨name, _ | value⟩ - <;> rfl

private theorem toMarkup_comment (s : String) :
    toMarkup (.call Tag.comment [.str s]) = .ok [.comment s] := by
  have hlabels : joinLabels [.str s] = .ok s := by
    change Except.ok (s ++ "") = .ok s
    rw [String.append_empty]
  rw [call, toMarkup_call rfl]
  unfold elementMarkup
  rw [if_neg (by decide), if_pos rfl]
  simp only [childrenIn, hlabels, ok_bind]
  rfl

/-- The form of an element stands for that element. -/
theorem toMarkup_element {tag : String} {attrs : Attributes} {kids : List Datum}
    {content : List Node} (hlower : Text.lower tag = tag) (hreserved : tag ∉ Tag.reserved)
    (hattrs : (attrs.map Prod.fst).Nodup) (hkids : listMarkup kids = .ok content) :
    toMarkup (.call (Tag.symbolName tag) (.map (attrs.map attributeEntry) :: kids)) =
      .ok [.element tag attrs content] := by
  have hpseudo := Tag.isPseudo_symbolName hlower hreserved
  rw [Tag.isPseudo, Bool.or_eq_false_iff, beq_eq_false_iff_ne, beq_eq_false_iff_ne] at hpseudo
  rw [call, toMarkup_call rfl]
  unfold elementMarkup
  rw [if_neg hpseudo.1, if_neg hpseudo.2]
  simp only [attributesIn, childrenIn, Option.getD_some, attributesOf_attributeEntry hattrs,
    hkids, ok_bind, Tag.elementName_symbolName hlower hreserved]
  rfl

end Datum

namespace Node

mutual

/-- No part of the node is lost when it becomes a form: tags are in lower case and not reserved, no
script holds forms, and no two attributes of an element have one name. -/
def isConvertible : Node → Bool
  | .text _ | .comment _ => true
  | .bare => false
  | .element tag attrs content =>
    Text.lower tag == tag && !Tag.reserved.contains tag && !isFormScript tag attrs &&
      decide (attrs.map Prod.fst).Nodup && allConvertible content

def allConvertible : List Node → Bool
  | [] => true
  | n :: ns => isConvertible n && allConvertible ns

end

private theorem allConvertible_eq_all (ns : List Node) :
    allConvertible ns = ns.all isConvertible := by
  induction ns with
  | nil => rfl
  | cons n ns ih => rw [allConvertible, ih, List.all_cons]

/-- If each node comes to one form that stands for it, so do the nodes together. -/
theorem listToForms_of_forall {ns : List Node}
    (h : ∀ n ∈ ns, ∃ v, n.toForms = .ok [v] ∧ v.toMarkup = .ok [n]) :
    ∃ forms, listToForms ns = .ok forms ∧ Datum.listMarkup forms = .ok ns := by
  induction ns with
  | nil => exact ⟨[], rfl, rfl⟩
  | cons n ns ih =>
      obtain ⟨v, hv, hnode⟩ := h n (by simp)
      obtain ⟨forms, hforms, hnodes⟩ := ih fun m hm => h m (by simp [hm])
      refine ⟨v :: forms, ?_, ?_⟩
      · rw [listToForms, hv, hforms]
        rfl
      · rw [Datum.listMarkup, hnode, hnodes]
        rfl

private theorem toMarkup_toForms {n : Node} (h : n.isConvertible = true) :
    ∃ v, n.toForms = .ok [v] ∧ v.toMarkup = .ok [n] := by
  induction n using induction_content with
  | text s => exact ⟨_, rfl, rfl⟩
  | comment s => exact ⟨_, rfl, Datum.toMarkup_comment s⟩
  | bare => cases h
  | element tag attrs content ih =>
      simp only [isConvertible, allConvertible_eq_all, Bool.and_eq_true, beq_iff_eq,
        Bool.not_eq_true', decide_eq_true_eq, List.contains_eq_mem, decide_eq_false_iff_not,
        List.all_eq_true] at h
      obtain ⟨⟨⟨⟨hlower, hreserved⟩, hscript⟩, hattrs⟩, hcontent⟩ := h
      obtain ⟨kids, hkids, hback⟩ := listToForms_of_forall fun n hn => ih n hn (hcontent n hn)
      refine ⟨_, ?_, Datum.toMarkup_element hlower hreserved hattrs hback⟩
      rw [toForms, hscript, hkids]
      rfl

/-- The forms of nodes stand for exactly these nodes: the same tags, attributes and content, in the
same order. -/
theorem listMarkup_listToForms {forest : List Node} (h : ∀ n ∈ forest, n.isConvertible = true) :
    ∃ forms, listToForms forest = .ok forms ∧ Datum.listMarkup forms = .ok forest :=
  listToForms_of_forall fun n hn => toMarkup_toForms (h n hn)

theorem listMarkup_listToForms_mixed :
    ∃ forest forms, forest = [.comment "c", .element "map" [("name", some ""), ("hidden", none)]
        [.text " x", .element "p" [] [], .element "script" [("type", none)] [.text "(a"]],
        .text "y"] ∧
      listToForms forest = .ok forms ∧ Datum.listMarkup forms = .ok forest := by
  have h := @listMarkup_listToForms [.comment "c",
    .element "map" [("name", some ""), ("hidden", none)]
      [.text " x", .element "p" [] [], .element "script" [("type", none)] [.text "(a"]],
    .text "y"] (by decide)
  obtain ⟨forms, hforms, hback⟩ := h
  exact ⟨_, forms, rfl, hforms, hback⟩

end Node

end PageForms
