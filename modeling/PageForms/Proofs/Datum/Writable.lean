import PageForms.Datum.Display
import PageForms.Datum.Layout
import PageForms.Datum.Sequence
import PageForms.Proofs.Datum.Finite
import PageForms.Proofs.Except

/-!
# Values that can be written

A value is writable if none of its integers is too long. Whatever text is asked of a writable value
is there, and its parts are writable.
-/

namespace PageForms.Datum

theorem text?_of_writable {v : Datum} (h : v.writable = true) : v.text? = .ok v.write := by
  rw [text?, ifWritable, if_pos h]

theorem writable_of_text? {v : Datum} {text : String} (h : v.text? = .ok text) :
    v.writable = true ∧ text = v.write := by
  unfold text? ifWritable at h
  split at h
  · next hw =>
    cases h
    exact ⟨hw, rfl⟩
  · cases h

theorem layOut?_of_writable {v : Datum} (h : v.writable = true) (width indent : Int) :
    v.layOut? width indent = .ok (v.layOutAt width indent) := by
  rw [layOut?, ifWritable, if_pos h]

theorem mapM_text? {vs : List Datum} (h : ∀ v ∈ vs, v.writable = true) :
    vs.mapM text? = .ok (vs.map write) := by
  induction vs with
  | nil => rfl
  | cons v vs ih =>
      rw [List.mapM_cons, text?_of_writable (h v (by simp)), ih fun w hw => h w (by simp [hw])]
      rfl

theorem label?_succeeds {v : Datum} (h : v.writable = true) :
    Succeeds v.label? fun _ => True := by
  rw [label?, ifWritable, if_pos h]
  exact .ok trivial

theorem text?_succeeds {v : Datum} (h : v.writable = true) : Succeeds v.text? fun _ => True := by
  rw [text?_of_writable h]
  exact .ok trivial

theorem writable_seq_iff {shape : Shape} {xs : List Datum} :
    (seq shape xs).writable = true ↔ ∀ x ∈ xs, x.writable = true := by
  rw [writable, allWritable_eq_all, List.all_eq_true]

theorem writable_map_iff {es : Entries} :
    (map es).writable = true ↔ ∀ e ∈ es, e.1.writable = true ∧ e.2.writable = true := by
  rw [writable, entriesWritable_eq_all, List.all_eq_true]
  simp only [Bool.and_eq_true]

theorem writable_of_items {v : Datum} {xs : List Datum} (hv : v.writable = true)
    (h : v.items = .ok xs) : ∀ x ∈ xs, x.writable = true := by
  unfold items at h
  split at h
  · cases h
    exact writable_seq_iff.1 hv
  · next es =>
    cases h
    intro x hx
    obtain ⟨e, he, rfl⟩ := List.mem_map.1 hx
    exact (writable_map_iff.1 hv e he).1
  · cases h
    intro x hx
    obtain ⟨c, -, rfl⟩ := List.mem_map.1 hx
    rfl
  · cases h

end PageForms.Datum
