import Mathlib.Data.List.Forall2
import Mathlib.Data.List.Induction
import PageForms.Proofs.Except

/-!
# Lists

Facts about lists that proofs on several kinds of data use: lists related item by item, the results
of a function on all items, and the items a test singles out.
-/

namespace PageForms

/-! ## Lists related item by item -/

theorem forall₂_iff_getElem? {α β : Type} {r : α → β → Prop} {xs : List α} {ys : List β} :
    List.Forall₂ r xs ys ↔ ys.length = xs.length ∧
      ∀ (i : Nat) (x : α), xs[i]? = some x → ∃ y, ys[i]? = some y ∧ r x y := by
  induction xs generalizing ys with
  | nil =>
      rw [List.forall₂_nil_left_iff]
      simp
  | cons x xs ih =>
      rw [List.forall₂_cons_left_iff]
      constructor
      · rintro ⟨y, zs, hxy, hzs, rfl⟩
        obtain ⟨hlength, hitems⟩ := ih.1 hzs
        refine ⟨by simp [hlength], ?_⟩
        intro i z hz
        cases i with
        | zero =>
            cases hz
            exact ⟨y, rfl, hxy⟩
        | succ i => exact hitems i z hz
      · rintro ⟨hlength, hitems⟩
        cases ys with
        | nil => simp at hlength
        | cons y zs =>
            obtain ⟨_, hy, hxy⟩ := hitems 0 x rfl
            cases hy
            refine ⟨y, zs, hxy, ih.2 ⟨by simpa using hlength, ?_⟩, rfl⟩
            intro i z hz
            exact hitems (i + 1) z hz

theorem forall_mem_of_forall₂ {α β : Type} {r : α → β → Prop} {q : β → Prop} {xs : List α}
    {ys : List β} (h : List.Forall₂ r xs ys) (hr : ∀ x ∈ xs, ∀ y, r x y → q y) :
    ∀ y ∈ ys, q y := by
  induction h with
  | nil => simp
  | @cons x y xs ys hxy _ ih =>
      rw [List.forall_mem_cons]
      exact ⟨hr x (by simp) y hxy, ih fun z hz => hr z (by simp [hz])⟩

theorem exists_forall₂ {α β : Type} {r : α → β → Prop} {xs : List α}
    (h : ∀ x ∈ xs, ∃ y, r x y) : ∃ ys, List.Forall₂ r xs ys := by
  induction xs with
  | nil => exact ⟨[], .nil⟩
  | cons x xs ih =>
      obtain ⟨y, hy⟩ := h x (by simp)
      obtain ⟨ys, hys⟩ := ih fun z hz => h z (by simp [hz])
      exact ⟨y :: ys, .cons hy hys⟩

theorem countP_forall₂ {α β : Type} {r : α → β → Prop} {p : α → Bool} {q : β → Bool}
    (hr : ∀ x y, r x y → p x = q y) {xs : List α} {ys : List β} (h : List.Forall₂ r xs ys) :
    xs.countP p = ys.countP q := by
  induction h with
  | nil => rfl
  | cons hxy _ ih => rw [List.countP_cons, List.countP_cons, ih, hr _ _ hxy]

/-! ## A function on all items -/

theorem forall₂_of_mapM {ε α β : Type} {f : α → Except ε β} {xs : List α} {ys : List β}
    (h : xs.mapM f = .ok ys) : List.Forall₂ (fun x y => f x = .ok y) xs ys := by
  induction xs generalizing ys with
  | nil =>
      cases h
      exact .nil
  | cons x xs ih =>
      obtain ⟨y, ys, hy, hys, rfl⟩ := mapM_cons_eq_ok h
      exact .cons hy (ih hys)

theorem exists_ok_of_mapM {ε α β : Type} {f : α → Except ε β} {xs : List α} {ys : List β}
    (h : xs.mapM f = .ok ys) : ∀ x ∈ xs, ∃ y, f x = .ok y := by
  intro x hx
  obtain ⟨i, hi⟩ := List.mem_iff_getElem?.1 hx
  obtain ⟨y, -, hy⟩ := (forall₂_iff_getElem?.1 (forall₂_of_mapM h)).2 i x hi
  exact ⟨y, hy⟩

theorem mapM_congr₂ {ε α β γ : Type} {r : α → β → Prop} {f : α → Except ε γ} {g : β → Except ε γ}
    {xs : List α} {ys : List β} (h : List.Forall₂ r xs ys) (hr : ∀ x y, r x y → f x = g y) :
    xs.mapM f = ys.mapM g := by
  induction h with
  | nil => rfl
  | cons hxy _ ih => rw [List.mapM_cons, List.mapM_cons, hr _ _ hxy, ih]

/-! ## Items singled out -/

/-- The place of the only item that passes a test. -/
theorem exists_split_of_filter {α : Type} {p : α → Bool} {xs : List α} {x : α}
    (h : xs.filter p = [x]) :
    ∃ front back, xs = front ++ x :: back ∧ p x = true ∧ ∀ y ∈ front ++ back, p y = false := by
  obtain ⟨front, back, rfl, hfront, hx, hback⟩ := List.filter_eq_cons_iff.1 h
  refine ⟨front, back, rfl, hx, ?_⟩
  intro y hy
  rcases List.mem_append.1 hy with hy | hy
  · simpa using hfront y hy
  · simpa using List.filter_eq_nil_iff.1 hback y hy

theorem exists_last {α : Type} (p : α → Prop) {xs : List α} {x : α} (hx : x ∈ xs) (hp : p x) :
    ∃ before y after, xs = before ++ y :: after ∧ p y ∧ ∀ z ∈ after, ¬p z := by
  induction xs generalizing x with
  | nil => cases hx
  | cons y xs ih =>
      by_cases hlater : ∃ z ∈ xs, p z
      · obtain ⟨z, hz, hpz⟩ := hlater
        obtain ⟨before, last, after, rfl, hlast⟩ := ih hz hpz
        exact ⟨y :: before, last, after, rfl, hlast⟩
      · have hxy : x = y := by
          rcases List.mem_cons.1 hx with rfl | hmem
          · rfl
          · exact absurd ⟨x, hmem, hp⟩ hlater
        exact ⟨[], y, xs, rfl, hxy ▸ hp, fun z hz hpz => hlater ⟨z, hz, hpz⟩⟩

theorem filterMap_getElem?_range {α : Type} (xs ys : List α) :
    (List.range xs.length).filterMap (fun k => (xs ++ ys)[k]?) = xs := by
  induction xs using List.reverseRecOn generalizing ys with
  | nil => rfl
  | append_singleton xs x ih =>
      rw [List.length_append, List.length_singleton, List.range_succ, List.filterMap_append,
        List.append_assoc, ih]
      simp

end PageForms
