import PageForms.Markup.Node
import PageForms.Markup.Reference
import PageForms.Proofs.Except

/-!
# Escaped text is restored

Escaping a text writes some of its characters as references. Replacing references in the escaped
text gives the text back, and nothing in it would start markup or end a quoted value.
-/

namespace PageForms.Reference

private theorem decode_cons {c : Char} (h : c ≠ '&') (cs : List Char) :
    decode (c :: cs) = (c :: ·) <$> decode cs := by
  rw [decode, if_neg h]

/-- A reference is replaced by the characters it stands for. -/
theorem decode_reference {name chars : List Char}
    (h : ∀ rest, reference? (name ++ rest) = some (.ok chars, rest)) (rest : List Char) :
    decode ('&' :: (name ++ rest)) = (chars ++ ·) <$> decode rest := by
  have hdrop : (name ++ rest).drop ((name ++ rest).length - rest.length) = rest := by simp
  rw [decode, if_pos rfl, h rest]
  simp only [hdrop, ok_bind]
  cases decode rest <;> rfl

/-- A known name with its semicolon is a reference. -/
theorem reference?_named {name chars : List Char} (hname : name.all isNameChar = true)
    (hne : name ≠ []) (hlength : name.length < 32)
    (hchars : resolve (name ++ [';']) = chars) (rest : List Char) :
    reference? (name ++ [';'] ++ rest) = some (.ok chars, rest) := by
  have htake : ((name ++ ';' :: rest).take 32).takeWhile isNameChar = name := by
    obtain ⟨k, hk⟩ : ∃ k, 32 - name.length = k + 1 := ⟨31 - name.length, by omega⟩
    rw [List.take_append, List.take_of_length_le (by omega), hk, List.take_succ_cons,
      List.takeWhile_append_of_pos (List.all_eq_true.1 hname),
      List.takeWhile_cons_of_neg (by decide), List.append_nil]
  have htakeName : takeName (name ++ ';' :: rest) = (name ++ [';'], rest) := by
    simp only [takeName, htake, List.drop_left]
  have hfirst : ∀ cs, name ++ ';' :: rest ≠ '#' :: cs := by
    intro cs hcs
    cases name with
    | nil => exact hne rfl
    | cons c name =>
        rw [List.cons_append, List.cons.injEq] at hcs
        rw [List.all_cons, hcs.1, Bool.and_eq_true] at hname
        exact absurd hname.1 (by decide)
  rw [List.append_assoc, List.singleton_append]
  unfold reference?
  split
  · next cs hcs => exact absurd hcs (hfirst cs)
  · rw [htakeName]
    split
    · next hnil => simp at hnil
    · next hsemicolon =>
      have : name = [] := by simpa using (Prod.mk.inj hsemicolon).1
      exact absurd this hne
    · next name' rest' _ _ heq =>
      cases heq
      rw [hchars]

/-! ## Escaping -/

/-- The text stands for the character: it is a reference to it, or the character itself. -/
def StandsFor (written : List Char) (c : Char) : Prop :=
  (∃ name, written = '&' :: name ∧ ∀ rest, reference? (name ++ rest) = some (.ok [c], rest)) ∨
  (written = [c] ∧ c ≠ '&')

private theorem standsFor_named (name : List Char) {c : Char} (hname : name.all isNameChar = true)
    (hne : name ≠ []) (hlength : name.length < 32) (hc : resolve (name ++ [';']) = [c]) :
    StandsFor ('&' :: (name ++ [';'])) c :=
  .inl ⟨name ++ [';'], rfl, reference?_named hname hne hlength hc⟩

private theorem standsFor_escapeChar (c : Char) : StandsFor (Node.escapeChar c) c := by
  unfold Node.escapeChar
  split
  · next h =>
    subst h
    exact standsFor_named "amp".toList rfl (by decide) (by decide) (by decide +kernel)
  split
  · next h =>
    subst h
    exact standsFor_named "lt".toList rfl (by decide) (by decide) (by decide +kernel)
  split
  · next h =>
    subst h
    exact standsFor_named "gt".toList rfl (by decide) (by decide) (by decide +kernel)
  · next hamp _ _ => exact .inr ⟨rfl, hamp⟩

private theorem standsFor_escapeValueChar (c : Char) : StandsFor (Node.escapeValueChar c) c := by
  unfold Node.escapeValueChar
  split
  · next h =>
    subst h
    exact standsFor_named "quot".toList rfl (by decide) (by decide) (by decide +kernel)
  split
  · next h =>
    subst h
    exact .inl ⟨"#x27;".toList, rfl, fun rest => rfl⟩
  · exact standsFor_escapeChar c

private theorem decode_append_of_standsFor {written : List Char} {c : Char}
    (h : StandsFor written c)
    (rest : List Char) : decode (written ++ rest) = (c :: ·) <$> decode rest := by
  rcases h with ⟨name, rfl, hname⟩ | ⟨rfl, hc⟩
  · exact decode_reference hname rest
  · exact decode_cons hc rest

/-- A text in which every character is written as something that stands for it is restored. -/
theorem decode_flatMap {write : Char → List Char} (h : ∀ c, StandsFor (write c) c)
    (cs : List Char) : decode (cs.flatMap write) = .ok cs := by
  induction cs with
  | nil => rw [List.flatMap_nil, decode]
  | cons c cs ih =>
      rw [List.flatMap_cons, decode_append_of_standsFor (h c), ih]
      rfl

theorem decode_escapeText (s : String) : decode (Node.escapeText s).toList = .ok s.toList := by
  rw [Node.escapeText, String.toList_ofList]
  exact decode_flatMap standsFor_escapeChar s.toList

theorem decode_escapeValue (s : String) : decode (Node.escapeValue s).toList = .ok s.toList := by
  rw [Node.escapeValue, String.toList_ofList]
  exact decode_flatMap standsFor_escapeValueChar s.toList

/-- A text without an ampersand has no references. -/
theorem decode_of_not_mem {cs : List Char} (h : '&' ∉ cs) : decode cs = .ok cs := by
  induction cs with
  | nil => rw [decode]
  | cons c cs ih =>
      rw [List.mem_cons, not_or] at h
      rw [decode_cons (Ne.symm h.1), ih h.2]
      rfl

theorem not_mem_escapeText (s : String) : '<' ∉ (Node.escapeText s).toList := by
  rw [Node.escapeText, String.toList_ofList, List.mem_flatMap]
  rintro ⟨c, -, hc⟩
  unfold Node.escapeChar at hc
  split at hc
  · exact absurd hc (by decide)
  split at hc
  · exact absurd hc (by decide)
  split at hc
  · exact absurd hc (by decide)
  · next hlt _ => exact hlt (List.mem_singleton.1 hc).symm

theorem not_mem_escapeValue (s : String) : '\x22' ∉ (Node.escapeValue s).toList := by
  rw [Node.escapeValue, String.toList_ofList, List.mem_flatMap]
  rintro ⟨c, -, hc⟩
  unfold Node.escapeValueChar at hc
  split at hc
  · exact absurd hc (by decide)
  · next hquote =>
    split at hc
    · exact absurd hc (by decide)
    unfold Node.escapeChar at hc
    split at hc
    · exact absurd hc (by decide)
    split at hc
    · exact absurd hc (by decide)
    split at hc
    · exact absurd hc (by decide)
    · exact hquote (List.mem_singleton.1 hc).symm

theorem escapeText_ne_nil {s : String} (h : s ≠ "") : (Node.escapeText s).toList ≠ [] := by
  intro hnil
  have hdecode := decode_escapeText s
  rw [hnil, decode] at hdecode
  apply h
  rw [← String.toList_inj, ← Except.ok.inj hdecode]
  rfl

end PageForms.Reference
