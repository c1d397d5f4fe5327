/-!
# Results of computations that may fail

What is known about the steps of a computation that has a result, and that a computation has one if
its steps do.
-/

namespace PageForms

variable {ε α β : Type}

theorem ok_bind (a : α) (f : α → Except ε β) : (Except.ok a >>= f : Except ε β) = f a := rfl

theorem bind_eq_ok {x : Except ε α} {f : α → Except ε β} {b : β} (h : x >>= f = .ok b) :
    ∃ a, x = .ok a ∧ f a = .ok b := by
  cases x with
  | error e => cases h
  | ok a => exact ⟨a, rfl, h⟩

theorem map_eq_ok {f : α → β} {x : Except ε α} {b : β} (h : f <$> x = .ok b) :
    ∃ a, x = .ok a ∧ f a = b := by
  cases x with
  | error e => cases h
  | ok a =>
      cases h
      exact ⟨a, rfl, rfl⟩

theorem map_eq_error_iff {f : α → β} {x : Except ε α} {e : ε} :
    f <$> x = .error e ↔ x = .error e := by
  cases x with
  | error e' =>
      constructor <;> intro h <;> cases h <;> rfl
  | ok a =>
      constructor <;> intro h <;> cases h

theorem exists_of_isOk {x : Except ε α} (h : x.isOk = true) : ∃ a, x = .ok a := by
  cases x with
  | error e => cases h
  | ok a => exact ⟨a, rfl⟩

theorem mapM_append_eq_ok {f : α → Except ε β} {xs ys : List α} {zs : List β}
    (h : (xs ++ ys).mapM f = .ok zs) :
    ∃ us vs, xs.mapM f = .ok us ∧ ys.mapM f = .ok vs ∧ zs = us ++ vs := by
  rw [List.mapM_append] at h
  obtain ⟨us, hus, h⟩ := bind_eq_ok h
  obtain ⟨vs, hvs, h⟩ := bind_eq_ok h
  cases h
  exact ⟨us, vs, hus, hvs, rfl⟩

theorem mapM_cons_eq_ok {f : α → Except ε β} {x : α} {xs : List α} {zs : List β}
    (h : (x :: xs).mapM f = .ok zs) :
    ∃ y ys, f x = .ok y ∧ xs.mapM f = .ok ys ∧ zs = y :: ys := by
  rw [List.mapM_cons] at h
  obtain ⟨y, hy, h⟩ := bind_eq_ok h
  obtain ⟨ys, hys, h⟩ := bind_eq_ok h
  cases h
  exact ⟨y, ys, hy, hys, rfl⟩

theorem mapM_congr {f g : α → Except ε β} {xs : List α} (h : ∀ x ∈ xs, f x = g x) :
    xs.mapM f = xs.mapM g := by
  induction xs with
  | nil => rfl
  | cons x xs ih =>
      rw [List.mapM_cons, List.mapM_cons, h x (by simp), ih fun y hy => h y (by simp [hy])]

/-- A computation that undoes a function on each value undoes it on a list. -/
theorem mapM_map_of_forall {f : β → Except ε α} {g : α → β} {xs : List α}
    (h : ∀ x ∈ xs, f (g x) = .ok x) : (xs.map g).mapM f = .ok xs := by
  induction xs with
  | nil => rfl
  | cons x xs ih =>
      rw [List.map_cons, List.mapM_cons, h x (by simp), ih fun y hy => h y (by simp [hy])]
      rfl

theorem exists_of_mem_mapM {f : α → Except ε β} {xs : List α} {ys : List β}
    (h : xs.mapM f = .ok ys) : ∀ y ∈ ys, ∃ x ∈ xs, f x = .ok y := by
  induction xs generalizing ys with
  | nil =>
      cases h
      simp
  | cons x xs ih =>
      obtain ⟨z, zs, hz, hzs, rfl⟩ := mapM_cons_eq_ok h
      intro y hy
      rcases List.mem_cons.1 hy with rfl | hy
      · exact ⟨x, by simp, hz⟩
      · obtain ⟨w, hw, hwy⟩ := ih hzs y hy
        exact ⟨w, by simp [hw], hwy⟩

/-- The computation has a result, and the result has the property. -/
def Succeeds (x : Except ε α) (p : α → Prop) : Prop :=
  ∃ a, x = .ok a ∧ p a

namespace Succeeds

variable {x : Except ε α} {p : α → Prop} {q : β → Prop}

theorem ok {a : α} (h : p a) : Succeeds (Except.ok a : Except ε α) p := ⟨a, rfl, h⟩

theorem bind {f : α → Except ε β} (hx : Succeeds x p) (hf : ∀ a, p a → Succeeds (f a) q) :
    Succeeds (x >>= f) q := by
  obtain ⟨a, rfl, ha⟩ := hx
  exact hf a ha

theorem map {f : α → β} (hx : Succeeds x p) (hf : ∀ a, p a → q (f a)) :
    Succeeds (f <$> x) q := by
  obtain ⟨a, rfl, ha⟩ := hx
  exact ok (hf a ha)

theorem mapM {f : α → Except ε β} {xs : List α} (h : ∀ x ∈ xs, Succeeds (f x) q) :
    Succeeds (xs.mapM f) fun ys => ∀ y ∈ ys, q y := by
  induction xs with
  | nil => exact ok (by simp)
  | cons x xs ih =>
      rw [List.mapM_cons]
      apply (h x (by simp)).bind
      intro y hy
      apply (ih fun z hz => h z (by simp [hz])).bind
      intro ys hys
      apply ok
      simpa [hy] using hys

end Succeeds

/-! ## Kinds of faults -/

/-- Every fault of the computation is of some kind. -/
def FaultsIn (p : ε → Prop) (x : Except ε α) : Prop :=
  ∀ e, x = .error e → p e

namespace FaultsIn

variable {p q : ε → Prop} {x : Except ε α}

theorem ok (a : α) : FaultsIn p (.ok a : Except ε α) := nofun

theorem error {e : ε} (h : p e) : FaultsIn p (.error e : Except ε α) := by
  intro e' he
  cases he
  exact h

theorem imp (hpq : ∀ e, p e → q e) (h : FaultsIn p x) : FaultsIn q x :=
  fun e he => hpq e (h e he)

theorem bind {f : α → Except ε β} (hx : FaultsIn p x)
    (hf : ∀ a, x = .ok a → FaultsIn p (f a)) : FaultsIn p (x >>= f) := by
  cases x with
  | error e => exact error (hx e rfl)
  | ok a => exact hf a rfl

theorem map (hx : FaultsIn p x) (f : α → β) : FaultsIn p (f <$> x) :=
  fun e he => hx e (map_eq_error_iff.1 he)

theorem mapM {f : α → Except ε β} {xs : List α} (h : ∀ x ∈ xs, FaultsIn p (f x)) :
    FaultsIn p (xs.mapM f) := by
  induction xs with
  | nil => exact ok _
  | cons x xs ih =>
      rw [List.mapM_cons]
      apply (h x (by simp)).bind
      intro y _
      apply (ih fun z hz => h z (by simp [hz])).bind
      intro ys _
      exact ok _

end FaultsIn

end PageForms
