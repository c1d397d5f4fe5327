import PageForms.Proofs.Datum.Margin

/-!
# Filling lines takes as few lines as possible

A vector of atoms that does not fit on a line is filled: an item goes on the line of the one before
it whenever there is room. No other way to break the items into lines that keeps to the margin, one
item having a line of its own wherever it does not fit, has fewer lines.

The lines are compared with those that come of filling on behind a shorter line: that never takes
more lines, and at most one less.
-/

namespace PageForms.Datum

def rowText (row : List Datum) : String :=
  Text.joinWith " " (row.map write)

/-- The items are put on lines in their order, and every line with two items or more, starting at
column `inner`, leaves room within the margin for what closes the sequence. -/
structure Breaking (width inner closing : Int) (xs : List Datum) (rows : List (List Datum)) :
    Prop where
  flatten_eq : rows.flatten = xs
  fits : ∀ row ∈ rows, 2 ≤ row.length → inner + extent (rowText row) + closing ≤ width

/-- The items line by line when each line is filled as far as the margin allows; `row` is the line
being filled. -/
def fillRows (width inner closing : Int) (row : List Datum) : List Datum → List (List Datum)
  | [] => [row]
  | x :: xs =>
    if width < inner + extent (rowText (row ++ [x])) + closing then
      row :: fillRows width inner closing [x] xs
    else fillRows width inner closing (row ++ [x]) xs

private theorem rowText_singleton (x : Datum) : rowText [x] = x.write := rfl

private theorem rowText_cons (x : Datum) {row : List Datum} (h : row ≠ []) :
    rowText (x :: row) = x.write ++ " " ++ rowText row := by
  rw [rowText, List.map_cons, joinWith_cons _ _ (by simpa using h)]
  rfl

private theorem rowText_concat {row : List Datum} (h : row ≠ []) (x : Datum) :
    rowText (row ++ [x]) = rowText row ++ " " ++ x.write := by
  induction row with
  | nil => exact absurd rfl h
  | cons y row ih =>
      cases row with
      | nil => rfl
      | cons z row =>
          rw [List.cons_append, rowText_cons y (by simp), ih (by simp), rowText_cons y (by simp)]
          simp only [String.append_assoc]

private theorem extent_rowText_concat {row : List Datum} (h : row ≠ []) (x : Datum) :
    extent (rowText (row ++ [x])) = extent (rowText row) + 1 + extent x.write := by
  rw [rowText_concat h, extent_append_blank]

private theorem extent_rowText_le_append {row : List Datum} (h : row ≠ []) (more : List Datum) :
    extent (rowText row) ≤ extent (rowText (row ++ more)) := by
  induction more generalizing row with
  | nil => rw [List.append_nil]
  | cons x more ih =>
      have hrest := @ih (row ++ [x]) (by simp)
      rw [extent_rowText_concat h, List.append_assoc] at hrest
      have hx := extent_nonneg x.write
      exact Int.le_trans (by omega) hrest

private theorem extent_rowText_singleton_le {row : List Datum} (h : row ≠ []) (x : Datum) :
    extent (rowText [x]) ≤ extent (rowText (row ++ [x])) := by
  have hnonneg := extent_nonneg (rowText row)
  rw [extent_rowText_concat h, rowText_singleton]
  omega

variable {width inner closing : Int}

/-! ## Filled lines as lists of items -/

/-- The lines that are filled are the texts of the rows. No text is empty, so neither is the line
being filled, and every item behind the first has a blank before it. -/
theorem fillFrom_eq_map_rowText {row xs : List Datum} (hrow : row ≠ [])
    (htext : rowText row ≠ "") (hxs : ∀ x ∈ xs, x.write ≠ "") :
    fillFrom width inner closing (rowText row) (xs.map write) =
      (fillRows width inner closing row xs).map rowText := by
  induction xs generalizing row with
  | nil => rfl
  | cons x xs ih =>
      have hxs' : ∀ y ∈ xs, y.write ≠ "" := fun y hy => hxs y (by simp [hy])
      have hx := @ih [x] (by simp) (hxs x (by simp)) hxs'
      have hconcat := @ih (row ++ [x]) (by simp) (by simp [rowText_concat hrow]) hxs'
      rw [rowText_concat hrow] at hconcat
      rw [List.map_cons, fillFrom, if_neg (by simpa using htext), fillRows, rowText_concat hrow]
      simp only
      split
      · rw [List.map_cons, ← hx, rowText_singleton]
      · exact hconcat

private theorem flatten_fillRows (row xs : List Datum) :
    (fillRows width inner closing row xs).flatten = row ++ xs := by
  induction xs generalizing row with
  | nil => simp [fillRows]
  | cons x xs ih =>
      rw [fillRows]
      split
      · rw [List.flatten_cons, ih, List.singleton_append]
      · rw [ih, List.append_assoc, List.singleton_append]

/-- What holds of every single item, and of every line that an item is put on because there is room,
holds of all lines. -/
theorem forall_mem_fillRows {P : List Datum → Prop} (hsingle : ∀ x, P [x])
    (hroom : ∀ row x, inner + extent (rowText (row ++ [x])) + closing ≤ width → P (row ++ [x]))
    {row : List Datum} (hrow : P row) (xs : List Datum) :
    ∀ r ∈ fillRows width inner closing row xs, P r := by
  induction xs generalizing row with
  | nil => simpa [fillRows] using hrow
  | cons x xs ih =>
      rw [fillRows]
      split
      · intro r hr
        rcases List.mem_cons.1 hr with rfl | hr
        · exact hrow
        · exact ih (hsingle x) r hr
      · next hfits => exact ih (hroom row x (Int.not_lt.1 hfits))

private theorem ne_nil_of_mem_fillRows (x : Datum) (xs : List Datum) :
    ∀ row ∈ fillRows width inner closing [x] xs, row ≠ [] :=
  forall_mem_fillRows (by simp) (by simp) (by simp) xs

private theorem breaking_fillRows (x : Datum) (xs : List Datum) :
    Breaking width inner closing (x :: xs) (fillRows width inner closing [x] xs) := by
  refine ⟨flatten_fillRows [x] xs, forall_mem_fillRows ?_ ?_ ?_ xs⟩
  · simp
  · intro row y hfits _
    exact hfits
  · simp

/-! ## No other way has fewer lines -/

/-- Filling on behind a shorter line takes no more lines, and at most one less. -/
theorem length_fillRows_of_le {row row' : List Datum} (hrow : row ≠ []) (hrow' : row' ≠ [])
    (h : extent (rowText row) ≤ extent (rowText row')) (xs : List Datum) :
    (fillRows width inner closing row xs).length ≤
        (fillRows width inner closing row' xs).length ∧
      (fillRows width inner closing row' xs).length ≤
        (fillRows width inner closing row xs).length + 1 := by
  induction xs generalizing row row' with
  | nil => simp [fillRows]
  | cons x xs ih =>
      have hlonger : extent (rowText (row ++ [x])) ≤ extent (rowText (row' ++ [x])) := by
        rw [extent_rowText_concat hrow, extent_rowText_concat hrow']
        omega
      rw [fillRows, fillRows]
      by_cases hbreak' : width < inner + extent (rowText (row' ++ [x])) + closing
      · rw [if_pos hbreak']
        by_cases hbreak : width < inner + extent (rowText (row ++ [x])) + closing
        · rw [if_pos hbreak, List.length_cons, List.length_cons]
          omega
        · -- Only the longer line is at its end: the new one is behind the shorter line.
          rw [if_neg hbreak, List.length_cons]
          have hrest := ih (by simp) (by simp) (extent_rowText_singleton_le hrow x)
          omega
      · rw [if_neg hbreak', if_neg (by omega)]
        exact ih (by simp) (by simp) hlonger

/-- A line that is ended early is worth at most one line. -/
theorem length_fillRows_cons_le {row : List Datum} (hrow : row ≠ []) (x : Datum)
    (xs : List Datum) :
    (fillRows width inner closing row (x :: xs)).length ≤
      (fillRows width inner closing [x] xs).length + 1 := by
  rw [fillRows]
  split
  · rw [List.length_cons]
  · have hle := extent_rowText_singleton_le hrow x
    exact (length_fillRows_of_le (by simp) (by simp) hle xs).2

/-- Items that fit on the line are put on it. -/
theorem fillRows_append {row more : List Datum} (hrow : row ≠ [])
    (hfits : more ≠ [] → inner + extent (rowText (row ++ more)) + closing ≤ width)
    (xs : List Datum) :
    fillRows width inner closing row (more ++ xs) =
      fillRows width inner closing (row ++ more) xs := by
  induction more generalizing row with
  | nil => rw [List.append_nil, List.nil_append]
  | cons x more ih =>
      have happend : row ++ x :: more = row ++ [x] ++ more := by simp
      rw [happend] at hfits ⊢
      have hfit := hfits (by simp)
      have hle := extent_rowText_le_append (by simp : row ++ [x] ≠ []) more
      rw [List.cons_append, fillRows, if_neg (by omega)]
      exact ih (by simp) fun _ => hfit

private theorem length_fillRows_le {x : Datum} {xs : List Datum} {rows : List (List Datum)}
    (h : Breaking width inner closing (x :: xs) rows) :
    (fillRows width inner closing [x] xs).length ≤ rows.length := by
  induction rows generalizing x xs with
  | nil => cases h.flatten_eq
  | cons row rows ih =>
      have hflatten := h.flatten_eq
      have hfits : ∀ r ∈ rows, 2 ≤ r.length → inner + extent (rowText r) + closing ≤ width :=
        fun r hr => h.fits r (by simp [hr])
      rw [List.flatten_cons] at hflatten
      rw [List.length_cons]
      cases row with
      | nil =>
          have hrest := ih ⟨hflatten, hfits⟩
          omega
      | cons y more =>
          rw [List.cons_append] at hflatten
          obtain ⟨rfl, rfl⟩ := List.cons.inj hflatten
          have hrow : more ≠ [] → inner + extent (rowText ([y] ++ more)) + closing ≤ width := by
            intro hmore
            apply h.fits (y :: more) (by simp)
            have hpos := List.length_pos_iff.2 hmore
            rw [List.length_cons]
            omega
          rw [fillRows_append (by simp) hrow]
          cases hrest : rows.flatten with
          | nil => simp [fillRows]
          | cons z zs =>
              have hbehind := ih ⟨hrest, hfits⟩
              have hcons : (fillRows width inner closing ([y] ++ more) (z :: zs)).length ≤
                  (fillRows width inner closing [z] zs).length + 1 :=
                length_fillRows_cons_le (by simp) z zs
              omega

/-! ## Vectors -/

private theorem fill_eq_rows {x : Datum} {xs : List Datum} (h : ∀ y ∈ x :: xs, y.write ≠ "")
    (width col : Int) :
    fill width col .vector (x :: xs) =
      "[" ++ Text.joinWith ("\n" ++ Text.spaces (col + 1))
        ((fillRows width (col + 1) 1 [x] xs).map rowText) ++ "]" := by
  have hrows : fillFrom width (col + 1) 1 (rowText [x]) (xs.map write) =
      (fillRows width (col + 1) 1 [x] xs).map rowText :=
    fillFrom_eq_map_rowText (by simp) (h x (by simp)) fun y hy => h y (by simp [hy])
  rw [← hrows]
  rfl

/-- A vector of atoms that does not fit on the line is filled. -/
theorem layOut?_vector {xs : List Datum} (hne : xs ≠ []) (hatoms : ∀ x ∈ xs, x.isCollection = false)
    (hwritable : ∀ x ∈ xs, x.writable = true) {width col : Int}
    (hlong : width < col + extent (vector xs).write) :
    (vector xs).layOut? width col = .ok (fill width col .vector xs) := by
  rw [layOut?_of_writable (writable_seq_iff.2 hwritable)]
  cases xs with
  | nil => exact absurd rfl hne
  | cons x xs =>
      have hnone : (x :: xs).any isCollection = false := by
        rw [List.any_eq_false]
        intro y hy
        simp [hatoms y hy]
      unfold layOutAt
      simp only [hnone]
      rw [if_neg (Int.not_le.2 hlong)]
      rfl

/-- A vector of atoms with texts is filled line by line in order, every line with two items or more
has room for the closing bracket, and there is no way to break the items into fewer such lines. -/
theorem fill_fewest_lines {xs : List Datum} (hne : xs ≠ [])
    (hatoms : ∀ x ∈ xs, x.isCollection = false)
    (htexts : ∀ x ∈ xs, ∃ text, x.text? = .ok text ∧ text ≠ "") (width col : Int) :
    (∃ rows, fill width col .vector xs =
        "[" ++ Text.joinWith ("\n" ++ Text.spaces (col + 1)) (rows.map rowText) ++ "]" ∧
      (∀ row ∈ rows, row ≠ []) ∧ Breaking width (col + 1) 1 xs rows ∧
      ∀ other, Breaking width (col + 1) 1 xs other → rows.length ≤ other.length) ∧
    (width < col + extent (vector xs).write →
      (vector xs).layOut? width col = .ok (fill width col .vector xs)) := by
  have hwritable : ∀ x ∈ xs, x.writable = true ∧ x.write ≠ "" := by
    intro x hx
    obtain ⟨text, htext, hnonempty⟩ := htexts x hx
    obtain ⟨hw, rfl⟩ := writable_of_text? htext
    exact ⟨hw, hnonempty⟩
  refine ⟨?_, layOut?_vector hne hatoms fun x hx => (hwritable x hx).1⟩
  cases xs with
  | nil => exact absurd rfl hne
  | cons x xs =>
      refine ⟨_, fill_eq_rows (fun y hy => (hwritable y hy).2) width col, ?_,
        breaking_fillRows x xs, fun other hother => length_fillRows_le hother⟩
      exact ne_nil_of_mem_fillRows x xs

/-- Five atoms on three lines. -/
theorem fill_fewest_lines_narrow :
    ∃ (xs : List Datum) (rows : List (List Datum)),
      xs = [.symbol "aa", .symbol "b", .int 12, .keyword "c", .str "d"] ∧
      xs ≠ [] ∧ (∀ x ∈ xs, x.isCollection = false) ∧
      (∀ x ∈ xs, ∃ text, x.text? = .ok text ∧ text ≠ "") ∧
      (vector xs).layOut? 10 2 = .ok "[aa b\n   12 :c\n   \"d\"]" ∧
      "[aa b\n   12 :c\n   \"d\"]" =
        "[" ++ Text.joinWith ("\n" ++ Text.spaces 3) (rows.map rowText) ++ "]" ∧
      Breaking 10 3 1 xs rows ∧ ∀ other, Breaking 10 3 1 xs other → rows.length ≤ other.length := by
  obtain ⟨xs, hxs⟩ : ∃ xs : List Datum,
      xs = [.symbol "aa", .symbol "b", .int 12, .keyword "c", .str "d"] := ⟨_, rfl⟩
  have hne : xs ≠ [] := by simp [hxs]
  have hatoms : ∀ x ∈ xs, x.isCollection = false := by
    rw [hxs]
    simp [isCollection]
  have htexts : ∀ x ∈ xs, ∃ text, x.text? = .ok text ∧ text ≠ "" := by
    intro x hx
    have hwritable : ∀ y ∈ xs, y.writable = true ∧ y.write ≠ "" := by
      rw [hxs]
      decide +kernel
    exact ⟨x.write, text?_of_writable (hwritable x hx).1, (hwritable x hx).2⟩
  have hfill : fill 10 2 .vector xs = "[aa b\n   12 :c\n   \"d\"]" := by
    rw [hxs]
    decide +kernel
  obtain ⟨⟨rows, hrows, -, hbreaking, hleast⟩, hlong⟩ := fill_fewest_lines hne hatoms htexts 10 2
  have hlaid := hlong (by rw [hxs]; decide +kernel)
  rw [hfill] at hlaid hrows
  exact ⟨xs, rows, hxs, hne, hatoms, htexts, hlaid, hrows, hbreaking, hleast⟩

end PageForms.Datum
