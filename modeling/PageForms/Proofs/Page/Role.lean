import PageForms.Page.Tag

/-!
# Roles and heads

The role of a value is decided by its head alone: a value with a role is a form or an anonymous
function with the role's symbol in front, and everything behind the head may change.
-/

namespace PageForms.Datum

theorem eq_seq_of_formItems? {v : Datum} {xs : List Datum} (h : v.formItems? = some xs) :
    ∃ shape, v = .seq shape xs ∧ shape.isCall = true := by
  unfold formItems? at h
  split at h
  · cases h
    exact ⟨.form, rfl, rfl⟩
  · cases h
    exact ⟨.fn, rfl, rfl⟩
  · cases h

theorem formItems?_seq_cons {shape : Shape} (h : shape.isCall = true) (x : Datum)
    (xs : List Datum) : (seq shape (x :: xs)).formItems? = some (x :: xs) := by
  cases shape with
  | form | fn => rfl
  | _ => cases h

/-- The role depends on the head alone. -/
theorem role_congr_tail {shape shape' : Shape} (h : shape.isCall = true) (h' : shape'.isCall = true)
    (x : Datum) (xs ys : List Datum) :
    (seq shape (x :: xs)).role = (seq shape' (x :: ys)).role := by
  unfold role
  rw [formItems?_seq_cons h, formItems?_seq_cons h']
  grind

theorem role_seq_cons {shape : Shape} (h : shape.isCall = true) (x : Datum) (xs : List Datum) :
    (seq shape (x :: xs)).role = (form [x]).role :=
  role_congr_tail h rfl x xs []

/-- A value with the role of a symbol is a call of that symbol. -/
theorem eq_seq_of_role {v : Datum} {r : Role} (h : v.role = r)
    (hr : r ∈ [Role.namespace, .html, .body, .style]) :
    ∃ shape xs, v = .seq shape (.symbol r.name :: xs) ∧ shape.isCall = true := by
  unfold role at h
  split at h
  case h_5 | h_6 =>
    subst h
    simp at hr
  -- the four symbols with a role of their own
  all_goals
    next rest hitems =>
      subst h
      obtain ⟨shape, rfl, hshape⟩ := eq_seq_of_formItems? hitems
      exact ⟨shape, rest, rfl, hshape⟩

theorem role_of_atom {v : Datum} (h : v.isCollection = false) : v.role = .other := by
  cases v with
  | seq => cases h
  | map => cases h
  | _ => rfl

end PageForms.Datum
