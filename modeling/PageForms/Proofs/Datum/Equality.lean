import PageForms.Proofs.Datum.Lexemes

/-!
# Equality of data

Equality by which keys are told apart is symmetric between values that can be keys, numbers of all
kinds included. A value equals itself unless it holds something that is not a number, and a map
equals every other one that has its entries in whatever order.
-/

namespace PageForms

theorem Binary64.equal_comm (x y : Binary64) : x.equal y = y.equal x := by
  cases x with
  | finite s m q =>
      cases y with
      | finite s' m' q' =>
          have hs : (s == s') = (s' == s) := Bool.beq_comm
          have hm : (m == m') = (m' == m) := Bool.beq_comm
          have hq : (q == q') = (q' == q) := Bool.beq_comm
          rw [equal, equal, Bool.and_comm (m == 0), hs, hm, hq]
      | _ => rfl
  | infinite s =>
      cases y with
      | infinite s' => exact Bool.beq_comm
      | _ => rfl
  | nan => cases y <;> rfl

theorem Binary64.equal_self {x : Binary64} (h : x ≠ .nan) : x.equal x = true := by
  cases x with
  | finite s m q => simp [equal]
  | infinite s => simp [equal]
  | nan => exact absurd rfl h

theorem Number.equal_comm (m n : Number) : m.equal n = n.equal m := by
  cases m with
  | int a =>
      cases n with
      | int b => exact Bool.beq_comm
      | float y => rfl
  | float x =>
      cases n with
      | int b => rfl
      | float y => exact Binary64.equal_comm x y

namespace Datum

/-! ## Symmetry -/

section Numbers

variable {a b : Datum} {m n : Number}

private theorem equal_of_numbers (ha : a.number? = some m) (hb : b.number? = some n) :
    a.equal b = m.equal n := by
  cases a <;> cases ha <;> cases b <;> cases hb <;> rfl

private theorem equal_of_one_number (ha : a.number? = some m) (hb : b.number? = none) :
    a.equal b = false ∧ b.equal a = false := by
  cases a <;> cases ha <;> cases b <;> cases hb <;> exact ⟨rfl, rfl⟩

private theorem equal_comm_of_number (ha : a.number? = some m) (b : Datum) :
    a.equal b = b.equal a := by
  cases hb : b.number? with
  | none =>
      obtain ⟨hleft, hright⟩ := equal_of_one_number ha hb
      rw [hleft, hright]
  | some n => rw [equal_of_numbers ha hb, equal_of_numbers hb ha, Number.equal_comm]

end Numbers

private theorem allHashable_of_hashable {shape : Shape} {xs : List Datum}
    (h : (seq shape xs).hashable = true) : allHashable xs = true := by
  cases shape with
  | list => cases h
  | _ => exact h

mutual

/-- Values that can be keys are told apart the same way from both sides. -/
theorem equal_comm (a b : Datum) (h : a.hashable = true) : a.equal b = b.equal a := by
  cases a with
  | seq s xs =>
      cases b with
      | seq t ys =>
          rw [equal, equal, Bool.beq_comm, equalItems_comm xs ys (allHashable_of_hashable h)]
      | _ => rfl
  | map es => cases h
  | bool _ | int _ | float _ => exact equal_comm_of_number rfl b
  | nil => cases b <;> rfl
  | str s =>
      cases b with
      | str t => exact Bool.beq_comm
      | _ => rfl
  | symbol s =>
      cases b with
      | symbol t => exact Bool.beq_comm
      | _ => rfl
  | keyword s =>
      cases b with
      | keyword t => exact Bool.beq_comm
      | _ => rfl
  | literal s =>
      cases b with
      | literal t => exact Bool.beq_comm
      | _ => rfl

private theorem equalItems_comm (xs ys : List Datum) (h : allHashable xs = true) :
    equalItems xs ys = equalItems ys xs := by
  cases xs with
  | nil => cases ys <;> rfl
  | cons x xs =>
      cases ys with
      | nil => rfl
      | cons y ys =>
          rw [allHashable, Bool.and_eq_true] at h
          rw [equalItems, equalItems, equal_comm x y h.1, equalItems_comm xs ys h.2]

end

/-! ## Values that equal themselves -/

private theorem equalItems_self {xs : List Datum} (h : ∀ x ∈ xs, x.equal x = true) :
    equalItems xs xs = true := by
  induction xs with
  | nil => rfl
  | cons x xs ih =>
      rw [equalItems, h x (by simp), ih fun y hy => h y (by simp [hy])]
      rfl

private theorem includedIn_of_mem {es fs : Entries}
    (h : ∀ e ∈ es, e ∈ fs ∧ e.1.equal e.1 = true ∧ e.2.equal e.2 = true) :
    includedIn es fs = true := by
  induction es with
  | nil => rfl
  | cons e es ih =>
      obtain ⟨hmem, hkey, hvalue⟩ := h e (by simp)
      have hany : fs.any (fun f => e.1.equal f.1 && e.2.equal f.2) = true :=
        List.any_eq_true.2 ⟨e, hmem, by rw [hkey, hvalue]; rfl⟩
      rw [includedIn, hany, ih fun f hf => h f (by simp [hf])]
      rfl

/-- The order of its entries does not matter for a map. -/
theorem equal_map_of_perm {es fs : Entries} (h : es.Perm fs)
    (hes : ∀ e ∈ es, e.1.equal e.1 = true ∧ e.2.equal e.2 = true) :
    (map es).equal (map fs) = true := by
  rw [equal, h.length_eq, includedIn_of_mem fun e he => ⟨h.mem_iff.1 he, hes e he⟩]
  simp

/-- A value equals itself if its atoms do. -/
theorem WellFormed.equal_self {p : Datum → Prop} {v : Datum} (h : v.WellFormed p)
    (hp : ∀ a, p a → a.equal a = true) : v.equal v = true := by
  induction h with
  | atom _ ha => exact hp _ ha
  | seq _ _ ih => rw [equal, equalItems_self ih, beq_self_eq_true]; rfl
  | map _ _ _ ihkeys ihvalues =>
      exact equal_map_of_perm (.refl _) fun e he => ⟨ihkeys e he, ihvalues e he⟩

end Datum

end PageForms
