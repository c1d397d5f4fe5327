import PageForms.Datum.Replace
import PageForms.Proofs.Lists

/-!
# Outermost replacement

A position lists places in sequences from the outside in. A part of a value is exposed to a
predicate if no part around it satisfies the predicate. Replacing touches exactly the exposed parts:
a match gives way to its replacement, every other sequence keeps its shape and its number of items,
and every other leaf stays. It fails only where the replacement of an exposed match does.
-/

namespace PageForms.Datum

variable {p : Datum → Bool} {f : Datum → Except Fault Datum}

/-! ## Positions -/

@[simp] theorem part?_nil (v : Datum) : v.part? [] = some v := by
  rw [part?]

@[simp] theorem part?_seq_cons (shape : Shape) (xs : List Datum) (i : Nat) (pos : List Nat) :
    (seq shape xs).part? (i :: pos) = xs[i]?.bind fun x => x.part? pos := by
  rw [part?]

theorem part?_cons_eq_some {v w : Datum} {i : Nat} {pos : List Nat}
    (h : v.part? (i :: pos) = some w) :
    ∃ shape xs x, v = .seq shape xs ∧ xs[i]? = some x ∧ x.part? pos = some w := by
  cases v with
  | seq shape xs =>
      rw [part?_seq_cons] at h
      obtain ⟨x, hx, h⟩ := Option.bind_eq_some_iff.1 h
      exact ⟨shape, xs, x, rfl, hx, h⟩
  | _ => cases h

/-- The part at a position, with no part around it that satisfies the predicate. -/
structure Exposed (p : Datum → Bool) (root : Datum) (pos : List Nat) (v : Datum) : Prop where
  isPart : root.part? pos = some v
  unmatched : ∀ front i back, pos = front ++ i :: back →
    ∀ w, root.part? front = some w → p w = false

theorem exposed_nil_iff {root v : Datum} : Exposed p root [] v ↔ v = root := by
  constructor
  · intro h
    exact (Option.some.inj h.isPart).symm
  · rintro rfl
    refine ⟨part?_nil v, ?_⟩
    intro front i back h
    simp at h

theorem exposed_cons_iff {root v : Datum} {i : Nat} {pos : List Nat} :
    Exposed p root (i :: pos) v ↔
      ∃ shape xs x, root = .seq shape xs ∧ p root = false ∧ xs[i]? = some x ∧
        Exposed p x pos v := by
  constructor
  · rintro ⟨hpart, hunmatched⟩
    obtain ⟨shape, xs, x, rfl, hx, hpart⟩ := part?_cons_eq_some hpart
    have hroot := hunmatched [] i pos rfl _ (part?_nil _)
    refine ⟨shape, xs, x, rfl, hroot, hx, hpart, ?_⟩
    intro front j back hpos w hw
    apply hunmatched (i :: front) j back (by rw [hpos, List.cons_append]) w
    rw [part?_seq_cons, hx, Option.bind_some, hw]
  · rintro ⟨shape, xs, x, rfl, hroot, hx, hpart, hunmatched⟩
    refine ⟨by rw [part?_seq_cons, hx, Option.bind_some, hpart], ?_⟩
    intro front j back hpos w hw
    cases front with
    | nil =>
        cases hw
        exact hroot
    | cons k front =>
        obtain ⟨rfl, rfl⟩ := List.cons.inj hpos
        rw [part?_seq_cons, hx, Option.bind_some] at hw
        exact hunmatched front j back rfl w hw

/-! ## What replacing leaves where -/

/-- What replacing puts in the place of an exposed part. -/
inductive Replaced (p : Datum → Bool) (f : Datum → Except Fault Datum) : Datum → Datum → Prop
  | matched {v w : Datum} (hp : p v = true) (h : f v = .ok w) : Replaced p f v w
  | sequence {shape : Shape} {xs ys : List Datum} (hp : p (.seq shape xs) = false)
      (h : ys.length = xs.length) : Replaced p f (.seq shape xs) (.seq shape ys)
  | leaf {v : Datum} (hp : p v = false) (h : ∀ shape xs, v ≠ .seq shape xs) : Replaced p f v v

private theorem replaceWhere_of_match {v : Datum} (h : p v = true) : v.replaceWhere p f = f v := by
  unfold replaceWhere
  split <;> exact if_pos h

private theorem replaceWhere_of_leaf {v : Datum} (hp : p v = false)
    (h : ∀ shape xs, v ≠ .seq shape xs) :
    v.replaceWhere p f = .ok v := by
  unfold replaceWhere
  split
  · exact absurd rfl (h _ _)
  · exact if_neg (by simp [hp])

private theorem replaceWhere_seq {shape : Shape} {xs : List Datum} (h : p (.seq shape xs) = false) :
    (seq shape xs).replaceWhere p f = .seq shape <$> replaceWhereIn p f xs := by
  rw [replaceWhere, if_neg (by simp [h])]

private theorem replaceWhereIn_eq_ok_iff {xs ys : List Datum} :
    replaceWhereIn p f xs = .ok ys ↔
      List.Forall₂ (fun x y => x.replaceWhere p f = .ok y) xs ys := by
  induction xs generalizing ys with
  | nil =>
      rw [replaceWhereIn, List.forall₂_nil_left_iff]
      constructor
      · intro h
        cases h
        rfl
      · rintro rfl
        rfl
  | cons x xs ih =>
      rw [replaceWhereIn, List.forall₂_cons_left_iff]
      constructor
      · intro h
        obtain ⟨y, hy, h⟩ := bind_eq_ok h
        obtain ⟨zs, hzs, h⟩ := bind_eq_ok h
        cases h
        exact ⟨y, zs, hy, ih.1 hzs, rfl⟩
      · rintro ⟨y, zs, hy, hzs, rfl⟩
        rw [hy, ih.2 hzs]
        rfl

/-- Replacing one step down: a match is replaced, a sequence item by item, and a leaf stays. -/
theorem replaceWhere_eq_ok_iff {root result : Datum} :
    root.replaceWhere p f = .ok result ↔
      (p root = true ∧ f root = .ok result) ∨
      (∃ shape xs ys, root = .seq shape xs ∧ p root = false ∧ result = .seq shape ys ∧
        List.Forall₂ (fun x y => x.replaceWhere p f = .ok y) xs ys) ∨
      (p root = false ∧ (∀ shape xs, root ≠ .seq shape xs) ∧ result = root) := by
  cases hp : p root with
  | true =>
      rw [replaceWhere_of_match hp]
      simp
  | false =>
      by_cases hseq : ∃ shape xs, root = .seq shape xs
      · obtain ⟨shape, xs, rfl⟩ := hseq
        rw [replaceWhere_seq hp]
        constructor
        · intro h
          obtain ⟨ys, hys, rfl⟩ := map_eq_ok h
          exact .inr (.inl ⟨shape, xs, ys, rfl, rfl, rfl, replaceWhereIn_eq_ok_iff.1 hys⟩)
        · rintro (⟨h, -⟩ | ⟨_, _, ys, h, -, rfl, hys⟩ | ⟨-, h, -⟩)
          · cases h
          · cases h
            rw [replaceWhereIn_eq_ok_iff.2 hys]
            rfl
          · exact absurd rfl (h shape xs)
      · have hleaf : ∀ shape xs, root ≠ .seq shape xs := fun shape xs h => hseq ⟨shape, xs, h⟩
        rw [replaceWhere_of_leaf hp hleaf]
        constructor
        · intro h
          cases h
          exact .inr (.inr ⟨rfl, hleaf, rfl⟩)
        · rintro (⟨h, -⟩ | ⟨shape, xs, -, h, -⟩ | ⟨-, -, rfl⟩)
          · cases h
          · exact absurd h (hleaf shape xs)
          · rfl

theorem exists_replaced {root result v : Datum} {pos : List Nat}
    (h : root.replaceWhere p f = .ok result) (hv : Exposed p root pos v) :
    ∃ w, result.part? pos = some w ∧ Replaced p f v w := by
  induction pos generalizing root result with
  | nil =>
      obtain rfl := exposed_nil_iff.1 hv
      refine ⟨result, part?_nil result, ?_⟩
      rcases replaceWhere_eq_ok_iff.1 h with ⟨hp, h⟩ | ⟨shape, xs, ys, rfl, hp, rfl, hys⟩ |
        ⟨hp, hleaf, rfl⟩
      · exact .matched hp h
      · exact .sequence hp hys.length_eq.symm
      · exact .leaf hp hleaf
  | cons i pos ih =>
      obtain ⟨shape, xs, x, rfl, hp, hx, hv⟩ := exposed_cons_iff.1 hv
      rcases replaceWhere_eq_ok_iff.1 h with ⟨hmatch, -⟩ | ⟨_, _, ys, hroot, -, rfl, hys⟩ |
        ⟨-, hleaf, -⟩
      · rw [hp] at hmatch
        cases hmatch
      · cases hroot
        obtain ⟨y, hy, hxy⟩ := (forall₂_iff_getElem?.1 hys).2 i x hx
        obtain ⟨w, hw, hreplaced⟩ := ih hxy hv
        exact ⟨w, by rw [part?_seq_cons, hy, Option.bind_some, hw], hreplaced⟩
      · exact absurd rfl (hleaf shape xs)

/-- What holds of the exposed parts of a sequence that is no match holds of those of its items. -/
theorem Exposed.of_item {shape : Shape} {xs : List Datum} {i : Nat} {x v : Datum} {pos : List Nat}
    (hp : p (.seq shape xs) = false) (hx : xs[i]? = some x) (h : Exposed p x pos v) :
    Exposed p (.seq shape xs) (i :: pos) v :=
  exposed_cons_iff.2 ⟨shape, xs, x, rfl, hp, hx, h⟩

mutual

/-- The exposed parts of a result determine it. -/
theorem replaceWhere_of_replaced : ∀ root result : Datum,
    (∀ pos v, Exposed p root pos v → ∃ w, result.part? pos = some w ∧ Replaced p f v w) →
      root.replaceWhere p f = .ok result
  | .seq shape xs, result, h => by
      obtain ⟨w, hw, hreplaced⟩ := h [] _ (exposed_nil_iff.2 rfl)
      obtain rfl := Option.some.inj hw
      apply replaceWhere_eq_ok_iff.2
      cases hreplaced with
      | matched hp h => exact .inl ⟨hp, h⟩
      | @sequence _ _ ys hp hlength =>
          refine .inr (.inl ⟨shape, xs, ys, rfl, hp, rfl, ?_⟩)
          apply forall₂_of_replaced xs ys hlength
          intro i x y hx hy pos v hv
          obtain ⟨w, hw, hreplaced⟩ := h (i :: pos) v (hv.of_item hp hx)
          rw [part?_seq_cons, hy, Option.bind_some] at hw
          exact ⟨w, hw, hreplaced⟩
      | leaf _ hleaf => exact absurd rfl (hleaf shape xs)
  | .nil, result, h | .bool _, result, h | .int _, result, h | .float _, result, h
  | .str _, result, h | .symbol _, result, h | .keyword _, result, h | .literal _, result, h
  | .map _, result, h => by
      obtain ⟨w, hw, hreplaced⟩ := h [] _ (exposed_nil_iff.2 rfl)
      obtain rfl := Option.some.inj hw
      apply replaceWhere_eq_ok_iff.2
      cases hreplaced with
      | matched hp h => exact .inl ⟨hp, h⟩
      | leaf hp hleaf => exact .inr (.inr ⟨hp, hleaf, rfl⟩)

private theorem forall₂_of_replaced : ∀ xs ys : List Datum, ys.length = xs.length →
    (∀ (i : Nat) (x y : Datum), xs[i]? = some x → ys[i]? = some y → ∀ pos v, Exposed p x pos v →
      ∃ w, y.part? pos = some w ∧ Replaced p f v w) →
    List.Forall₂ (fun x y => x.replaceWhere p f = .ok y) xs ys
  | [], [], _, _ => .nil
  | [], _ :: _, hlength, _ => by simp at hlength
  | _ :: _, [], hlength, _ => by simp at hlength
  | x :: xs, y :: ys, hlength, h =>
      .cons (replaceWhere_of_replaced x y (h 0 x y rfl rfl))
        (forall₂_of_replaced xs ys (by simpa using hlength) fun i => h (i + 1))

end

mutual

/-- Replacing fails only where the replacement of a match does. -/
theorem exists_replaceWhere : ∀ root : Datum,
    (∀ pos v, Exposed p root pos v → p v = true → ∃ w, f v = .ok w) →
      ∃ result, root.replaceWhere p f = .ok result
  | .seq shape xs, h => by
      cases hp : p (.seq shape xs) with
      | true =>
          rw [replaceWhere_of_match hp]
          exact h [] _ (exposed_nil_iff.2 rfl) hp
      | false =>
          obtain ⟨ys, hys⟩ := exists_replaceWhereIn xs fun i x hx pos v hv =>
            h (i :: pos) v (hv.of_item hp hx)
          rw [replaceWhere_seq hp, hys]
          exact ⟨_, rfl⟩
  | .nil, h | .bool _, h | .int _, h | .float _, h | .str _, h | .symbol _, h | .keyword _, h
  | .literal _, h | .map _, h => by
      cases hp : p _ with
      | true =>
          rw [replaceWhere_of_match hp]
          exact h [] _ (exposed_nil_iff.2 rfl) hp
      | false => exact ⟨_, replaceWhere_of_leaf hp (by simp)⟩

private theorem exists_replaceWhereIn : ∀ xs : List Datum,
    (∀ (i : Nat) (x : Datum), xs[i]? = some x →
      ∀ pos v, Exposed p x pos v → p v = true → ∃ w, f v = .ok w) →
      ∃ ys, replaceWhereIn p f xs = .ok ys
  | [], _ => ⟨[], rfl⟩
  | x :: xs, h => by
      obtain ⟨y, hy⟩ := exists_replaceWhere x (h 0 x rfl)
      obtain ⟨ys, hys⟩ := exists_replaceWhereIn xs fun i => h (i + 1)
      rw [replaceWhereIn, hy, hys]
      exact ⟨_, rfl⟩

end

end PageForms.Datum
