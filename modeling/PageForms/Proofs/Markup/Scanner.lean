import PageForms.Markup.Scanner
import PageForms.Proofs.Except
import PageForms.Proofs.Markup.Reference

/-!
# Scanning markup piece by piece

A text scans to some events if, whatever follows it, scanning gives those events and then those of
what follows. Tags, comments and declarations are such texts, and texts in a row scan to their
events in a row. Character data is not, since it may go on, but it is one together with a piece of
markup behind it.
-/

namespace PageForms.Scanner

open Text (isBlank isLetter)

theorem drop_length_sub (cs rest : List Char) :
    (cs ++ rest).drop ((cs ++ rest).length - rest.length) = rest := by
  simp

theorem take_length_sub (cs rest : List Char) :
    (cs ++ rest).take ((cs ++ rest).length - rest.length) = cs := by
  simp

/-- A run of characters ends before the first one that is none of them. -/
theorem span_append {p : Char → Bool} {cs rest : List Char} (hcs : ∀ c ∈ cs, p c = true)
    (hrest : ∀ c ∈ rest.head?, p c = false) :
    (cs ++ rest).takeWhile p = cs ∧ (cs ++ rest).dropWhile p = rest := by
  rw [List.takeWhile_append_of_pos hcs, List.dropWhile_append_of_pos hcs]
  cases rest with
  | nil => simp
  | cons c rest =>
      have hc : ¬ p c = true := by simp [hrest c rfl]
      rw [List.takeWhile_cons_of_neg hc, List.dropWhile_cons_of_neg hc, List.append_nil]
      exact ⟨rfl, rfl⟩

/-! ## Searching -/

/-- The first place where `p` succeeds is behind a text in which it never does. -/
theorem search?_append {α : Type} {p : List Char → Option α} {cs rest : List Char} {a : α}
    (hnone : ∀ front back, cs = front ++ back → back ≠ [] → p (back ++ rest) = none)
    (ha : p rest = some a) : search? p (cs ++ rest) = some (cs, a) := by
  induction cs with
  | nil =>
      cases rest with
      | nil => rw [List.nil_append, search?, ha, Option.map_some]
      | cons c rest => rw [List.nil_append, search?, ha]
  | cons c cs ih =>
      have hrest := ih fun front back hcs => hnone (c :: front) back (by rw [hcs, List.cons_append])
      have hfirst := hnone [] (c :: cs) rfl (List.cons_ne_nil c cs)
      rw [List.cons_append] at hfirst ⊢
      rw [search?, hfirst, hrest, Option.map_some]

theorem breakAt?_append {c : Char} {cs : List Char} (h : c ∉ cs) (rest : List Char) :
    breakAt? c (cs ++ c :: rest) = some (cs, rest) := by
  apply search?_append
  · intro front back hcs hback
    cases back with
    | nil => exact absurd rfl hback
    | cons d back =>
        have hd : d ≠ c := by
          rintro rfl
          exact h (by simp [hcs])
        rw [List.cons_append, List.head?_cons, if_neg (by simpa using hd)]
  · rw [List.head?_cons, if_pos rfl, List.tail_cons]

/-! ## Texts that scan to events -/

/-- Whatever follows the text, it comes to these events. -/
def Scans (cs : List Char) (events : List Event) : Prop :=
  ∀ rest, scanFrom none (cs ++ rest) = (events ++ ·) <$> scanFrom none rest

theorem Scans.nil : Scans [] [] := by
  intro rest
  rw [List.nil_append]
  cases scanFrom none rest <;> rfl

theorem Scans.append {cs ds : List Char} {events more : List Event} (hcs : Scans cs events)
    (hds : Scans ds more) : Scans (cs ++ ds) (events ++ more) := by
  intro rest
  rw [List.append_assoc, hcs, hds]
  cases scanFrom none rest with
  | error fault => rfl
  | ok last =>
      change Except.ok (events ++ (more ++ last)) = .ok (events ++ more ++ last)
      rw [List.append_assoc]

/-- Scanning goes on behind what a `<` starts. -/
theorem scanFrom_of_piece {cs rest : List Char} {events : List Event} {raw : Option String}
    (h : piece (cs ++ rest) = .ok ⟨events, raw, rest⟩) :
    scanFrom none ('<' :: (cs ++ rest)) = (events ++ ·) <$> scanFrom raw rest := by
  rw [scanFrom, if_pos rfl, h]
  simp only [ok_bind, drop_length_sub]
  cases scanFrom raw rest <;> rfl

theorem scans_of_piece {cs : List Char} {events : List Event}
    (h : ∀ rest, piece (cs ++ rest) = .ok ⟨events, none, rest⟩) : Scans ('<' :: cs) events :=
  fun rest => scanFrom_of_piece (h rest)

/-- Scanning goes on behind the element whose plain text ends. -/
theorem scanFrom_of_rawPiece {tag : String} {cs rest : List Char} {events : List Event}
    (hne : cs ≠ []) (h : rawPiece? tag (cs ++ rest) = some ⟨events, none, rest⟩) :
    scanFrom (some tag) (cs ++ rest) = (events ++ ·) <$> scanFrom none rest := by
  cases cs with
  | nil => exact absurd rfl hne
  | cons c cs =>
      rw [List.cons_append] at h ⊢
      rw [scanFrom, h]
      simp only [drop_length_sub]
      cases scanFrom none rest <;> rfl

/-! ## Character data -/

/-- Character data reaches up to the next `<` or the end. -/
theorem scanFrom_data {cs rest text : List Char} (hne : cs ≠ []) (hcs : '<' ∉ cs)
    (hrest : ∀ c ∈ rest.head?, c = '<') (htext : Reference.decode cs = .ok text) :
    scanFrom none (cs ++ rest) =
      (Event.data (String.ofList text) :: ·) <$> scanFrom none rest := by
  cases cs with
  | nil => exact absurd rfl hne
  | cons c cs =>
      rw [List.mem_cons, not_or] at hcs
      have htake : (cs ++ rest).takeWhile (· != '<') = cs := by
        apply (span_append _ _).1
        · intro d hd
          rw [bne_iff_ne]
          rintro rfl
          exact hcs.2 hd
        · intro d hd
          rw [hrest d hd]
          rfl
      rw [List.cons_append, scanFrom, if_neg (Ne.symm hcs.1), htake, plain, htext]
      simp only [ok_bind, List.drop_left]
      cases scanFrom none rest <;> rfl

/-- Character data together with the markup that ends it. -/
theorem Scans.data_append {cs text tail : List Char} {events : List Event}
    (htail : Scans ('<' :: tail) events) (hne : cs ≠ []) (hcs : '<' ∉ cs)
    (htext : Reference.decode cs = .ok text) :
    Scans (cs ++ '<' :: tail) (.data (String.ofList text) :: events) := by
  intro rest
  have hnext : ∀ c ∈ ('<' :: tail ++ rest).head?, c = '<' := by simp
  rw [List.append_assoc, scanFrom_data hne hcs hnext htext, htail]
  cases scanFrom none rest <;> rfl

/-! ## Comments and document types -/

/-- White space in a text without `>` is not followed by `>` if the text ends with a dash. -/
theorem dropWhile_isBlank_ne {cs : List Char} (h : '>' ∉ cs) (rest after : List Char) :
    (cs ++ '-' :: rest).dropWhile isBlank ≠ '>' :: after := by
  intro heq
  induction cs with
  | nil => exact absurd (List.cons.inj heq).1 (by decide)
  | cons c cs ih =>
      rw [List.mem_cons, not_or] at h
      rw [List.cons_append, List.dropWhile_cons] at heq
      split at heq
      · exact ih h.2 heq
      · exact h.1 (List.cons.inj heq).1.symm

/-- A comment does not end inside a text without `>`, nor with the dashes at the end of it. -/
theorem commentEnd?_append {cs : List Char} (hne : cs ≠ []) (h : '>' ∉ cs) (rest : List Char) :
    commentEnd? (cs ++ '-' :: '-' :: '>' :: rest) = none := by
  unfold commentEnd?
  split
  · next ds heq =>
    have hds : ∀ after, ds.dropWhile isBlank ≠ '>' :: after := by
      intro after
      rcases cs with _ | ⟨c, _ | ⟨d, cs⟩⟩
      · exact absurd rfl hne
      · have hds : ds = [] ++ '-' :: '>' :: rest := by
          simpa using (List.cons.inj (List.cons.inj heq).2).2.symm
        rw [hds]
        exact dropWhile_isBlank_ne List.not_mem_nil _ _
      · have hds : ds = cs ++ '-' :: '-' :: '>' :: rest :=
          (List.cons.inj (List.cons.inj heq).2).2.symm
        rw [hds]
        exact dropWhile_isBlank_ne (fun hmem => h (by simp [hmem])) _ _
    split
    · next after hafter => exact absurd hafter (hds after)
    · rfl
  · rfl

theorem scans_comment {s : String} (h : '>' ∉ s.toList) :
    Scans ("<!--".toList ++ s.toList ++ "-->".toList) [.comment s] := by
  have hpiece : ∀ rest, piece ('!' :: '-' :: '-' :: (s.toList ++ "-->".toList) ++ rest) =
      .ok ⟨[.comment s], none, rest⟩ := by
    intro rest
    have hsearch : search? commentEnd? (s.toList ++ '-' :: '-' :: '>' :: rest) =
        some (s.toList, rest) := by
      apply search?_append
      · intro front back hs hback
        apply commentEnd?_append hback
        intro hmem
        exact h (by simp [hs, hmem])
      · rfl
    have happend : s.toList ++ "-->".toList ++ rest = s.toList ++ '-' :: '-' :: '>' :: rest := by
      simp
    rw [List.cons_append, List.cons_append, List.cons_append, happend]
    simp only [piece, declaration?, hsearch, Option.map_some, ok_bind, String.ofList_toList]
    rfl
  exact scans_of_piece hpiece

theorem scans_doctype {name : String} (h : '>' ∉ name.toList) :
    Scans ("<!DOCTYPE ".toList ++ name.toList ++ ">".toList) [] := by
  have hpiece : ∀ rest, piece ("!DOCTYPE ".toList ++ name.toList ++ ">".toList ++ rest) =
      .ok ⟨[], none, rest⟩ := by
    intro rest
    have hbreak : breakAt? '>' (' ' :: name.toList ++ '>' :: rest) =
        some (' ' :: name.toList, rest) :=
      breakAt?_append (by simpa using h) rest
    have happend : "!DOCTYPE ".toList ++ name.toList ++ ">".toList ++ rest =
        '!' :: ("DOCTYPE".toList ++ (' ' :: name.toList ++ '>' :: rest)) := by
      simp
    have hlower : Text.lower (String.ofList "DOCTYPE".toList) = "doctype" := by decide
    have htake : ("DOCTYPE".toList ++ (' ' :: name.toList ++ '>' :: rest)).take 7 =
      "DOCTYPE".toList := rfl
    have hdrop : ("DOCTYPE".toList ++ (' ' :: name.toList ++ '>' :: rest)).drop 7 =
      ' ' :: name.toList ++ '>' :: rest := rfl
    have hdeclaration : declaration? ("DOCTYPE".toList ++ (' ' :: name.toList ++ '>' :: rest)) =
        .ok (some ⟨[], none, rest⟩) := by
      unfold declaration?
      split
      · next heq => cases heq
      · next heq => cases heq
      · rw [htake, if_pos hlower, hdrop, hbreak, Option.map_some]
    rw [happend]
    simp only [piece, hdeclaration, ok_bind]
    rfl
  exact scans_of_piece hpiece

end PageForms.Scanner
