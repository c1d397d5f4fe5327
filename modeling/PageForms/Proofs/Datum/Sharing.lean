import PageForms.Proofs.Datum.Outermost

/-!
# Replacing an object

What replacing at marked positions leaves is said position by position (`part?_replaceMarked`). An
object never stands inside itself, so all positions that have it are outermost: replacing it changes
these and nothing else.
-/

namespace PageForms.Datum

/-! ## Parts of parts -/

private theorem part?_append (v : Datum) (pos rest : List Nat) :
    v.part? (pos ++ rest) = (v.part? pos).bind fun w => w.part? rest := by
  induction pos generalizing v with
  | nil => rw [List.nil_append, part?_nil, Option.bind_some]
  | cons i pos ih =>
      cases v with
      | seq shape xs =>
          rw [List.cons_append, part?_seq_cons, part?_seq_cons]
          cases xs[i]? with
          | none => rfl
          | some x => exact ih x
      | _ => rfl

private theorem sizeOf_part?_le {v w : Datum} {pos : List Nat} (h : v.part? pos = some w) :
    sizeOf w ≤ sizeOf v := by
  induction pos generalizing v with
  | nil =>
      cases h
      exact Nat.le_refl _
  | cons i pos ih =>
      obtain ⟨shape, xs, x, rfl, hx, h⟩ := part?_cons_eq_some h
      have hmem := List.sizeOf_lt_of_mem (List.mem_of_getElem? hx)
      have hpart := ih h
      simp only [seq.sizeOf_spec]
      omega

/-- No value is a proper part of itself. -/
theorem part?_cons_ne_self (v : Datum) (i : Nat) (pos : List Nat) :
    v.part? (i :: pos) ≠ some v := by
  intro h
  obtain ⟨shape, xs, x, rfl, hx, h⟩ := part?_cons_eq_some h
  have hmem := List.sizeOf_lt_of_mem (List.mem_of_getElem? hx)
  have hpart := sizeOf_part?_le h
  simp only [seq.sizeOf_spec] at hpart
  omega

/-! ## Marked positions -/

section Marked

variable {marked : List Nat → Bool} {new : Datum}

private theorem replaceMarked_of_marked (v : Datum) (h : marked [] = true) :
    replaceMarked marked new v = new := by
  unfold replaceMarked
  split <;> exact if_pos h

private theorem replaceMarked_seq (shape : Shape) (xs : List Datum) (h : marked [] = false) :
    replaceMarked marked new (.seq shape xs) = .seq shape (replaceMarkedFrom marked new 0 xs) := by
  rw [replaceMarked, if_neg (by simp [h])]

private theorem replaceMarked_leaf {v : Datum} (hleaf : ∀ shape xs, v ≠ .seq shape xs)
    (h : marked [] = false) : replaceMarked marked new v = v := by
  unfold replaceMarked
  split
  · exact absurd rfl (hleaf _ _)
  · exact if_neg (by simp [h])

private theorem getElem?_replaceMarkedFrom (n : Nat) (xs : List Datum) (i : Nat) :
    (replaceMarkedFrom marked new n xs)[i]? =
      xs[i]?.map (replaceMarked (fun pos => marked ((n + i) :: pos)) new) := by
  induction xs generalizing n i with
  | nil => rfl
  | cons x xs ih =>
      rw [replaceMarkedFrom]
      cases i with
      | zero => rfl
      | succ i =>
          rw [List.getElem?_cons_succ, List.getElem?_cons_succ, ih, Nat.add_right_comm,
            Nat.add_assoc]

private theorem length_replaceMarkedFrom (n : Nat) (xs : List Datum) :
    (replaceMarkedFrom marked new n xs).length = xs.length := by
  induction xs generalizing n with
  | nil => rfl
  | cons x xs ih => rw [replaceMarkedFrom, List.length_cons, List.length_cons, ih]

/-- Below what is not marked, a part is replaced by the marks that are left for it. -/
theorem part?_replaceMarked {root : Datum} {pos : List Nat}
    (h : ∀ front i back, pos = front ++ i :: back →
      ∀ v, root.part? front = some v → marked front = false) :
    (replaceMarked marked new root).part? pos =
      (root.part? pos).map (replaceMarked (fun rest => marked (pos ++ rest)) new) := by
  induction pos generalizing root marked with
  | nil => rw [part?_nil, part?_nil, Option.map_some]; rfl
  | cons i pos ih =>
      have hroot := h [] i pos rfl root (part?_nil root)
      cases root with
      | seq shape xs =>
          rw [replaceMarked_seq shape xs hroot, part?_seq_cons, part?_seq_cons,
            getElem?_replaceMarkedFrom, Nat.zero_add]
          cases hx : xs[i]? with
          | none => rfl
          | some x =>
              rw [Option.map_some, Option.bind_some, Option.bind_some, ih]
              · rfl
              · intro front j back hpos v hv
                refine h (i :: front) j back (by rw [hpos, List.cons_append]) v ?_
                rw [part?_seq_cons, hx, Option.bind_some, hv]
      | _ =>
          rw [replaceMarked_leaf (by simp) hroot]
          rfl

mutual

private theorem replaceMarked_of_unmarked : ∀ (root : Datum) (marked : List Nat → Bool),
    (∀ pos v, root.part? pos = some v → marked pos = false) → replaceMarked marked new root = root
  | .seq shape xs, marked, h => by
      rw [replaceMarked_seq shape xs (h [] _ (part?_nil _)),
        replaceMarkedFrom_of_unmarked 0 xs marked fun i x hx pos v hv =>
          h ((0 + i) :: pos) v (by rw [Nat.zero_add, part?_seq_cons, hx, Option.bind_some, hv])]
  | .nil, _, h | .bool _, _, h | .int _, _, h | .float _, _, h | .str _, _, h | .symbol _, _, h
  | .keyword _, _, h | .literal _, _, h | .map _, _, h =>
      replaceMarked_leaf (by simp) (h [] _ (part?_nil _))

private theorem replaceMarkedFrom_of_unmarked :
    ∀ (n : Nat) (xs : List Datum) (marked : List Nat → Bool),
    (∀ (i : Nat) (x : Datum), xs[i]? = some x →
      ∀ pos v, x.part? pos = some v → marked ((n + i) :: pos) = false) →
    replaceMarkedFrom marked new n xs = xs
  | _, [], _, _ => rfl
  | n, x :: xs, marked, h => by
      have hhead : replaceMarked (fun pos => marked (n :: pos)) new x = x :=
        replaceMarked_of_unmarked x _ (h 0 x rfl)
      rw [replaceMarkedFrom, hhead,
        replaceMarkedFrom_of_unmarked (n + 1) xs marked fun i y hy pos v hv => by
          rw [Nat.add_right_comm, Nat.add_assoc]
          exact h (i + 1) y hy pos v hv]

end

end Marked

/-! ## What has changed -/

/-- Only the parts at these places have changed. -/
structure ReplacedAt (root : Datum) (places : List Nat → Prop) (new result : Datum) : Prop where
  replaced : ∀ pos, places pos → result.part? pos = some new
  apart : ∀ other, (∀ pos, places pos → ¬other <+: pos ∧ ¬pos <+: other) →
    result.part? other = root.part? other
  around : ∀ front i back, places (front ++ i :: back) →
    ∃ shape xs ys, root.part? front = some (.seq shape xs) ∧ ys.length = xs.length ∧
      result.part? front = some (.seq shape ys)

theorem ReplacedAt.congr {root new result : Datum} {places places' : List Nat → Prop}
    (h : ReplacedAt root places new result) (hsame : ∀ pos, places pos ↔ places' pos) :
    ReplacedAt root places' new result := by
  obtain rfl : places = places' := funext fun pos => propext (hsame pos)
  exact h

/-- Parts that are marked, and not inside each other, are replaced where they stand. -/
theorem replacedAt_replaceMarked {root : Datum} {marked : List Nat → Bool} (new : Datum)
    (hpart : ∀ pos, marked pos = true → ∃ v, root.part? pos = some v)
    (hapart : ∀ front i back, marked front = true → marked (front ++ i :: back) = false) :
    ReplacedAt root (fun pos => marked pos = true) new (replaceMarked marked new root) := by
  -- what stands around a marked part is not marked
  have habove : ∀ pos, marked pos = true → ∀ front i back, pos = front ++ i :: back →
      ∀ v, root.part? front = some v → marked front = false := by
    rintro pos hpos front i back rfl v -
    rw [← Bool.not_eq_true]
    intro hfront
    rw [hapart front i back hfront] at hpos
    cases hpos
  refine ⟨?_, ?_, ?_⟩
  · intro pos hpos
    obtain ⟨v, hv⟩ := hpart pos hpos
    rw [part?_replaceMarked (habove pos hpos), hv, Option.map_some, replaceMarked_of_marked]
    rwa [List.append_nil]
  · intro other hother
    have hunmarked : ∀ pos, other <+: pos ∨ pos <+: other → marked pos = false := by
      intro pos hpos
      rw [← Bool.not_eq_true]
      intro hmarked
      exact hpos.elim (hother pos hmarked).1 (hother pos hmarked).2
    rw [part?_replaceMarked]
    · cases hv : root.part? other with
      | none => rfl
      | some v =>
          rw [Option.map_some, replaceMarked_of_unmarked v _ fun rest _ _ =>
            hunmarked _ (.inl (List.prefix_append other rest))]
    · rintro front i back rfl v -
      exact hunmarked front (.inr (List.prefix_append ..))
  · intro front i back hpos
    obtain ⟨v, hv⟩ := hpart _ hpos
    rw [part?_append] at hv
    obtain ⟨w, hw, hv⟩ := Option.bind_eq_some_iff.1 hv
    obtain ⟨shape, xs, -, rfl, -, -⟩ := part?_cons_eq_some hv
    have hfront := habove _ hpos front i back rfl _ hw
    refine ⟨shape, xs, replaceMarkedFrom (fun rest => marked (front ++ rest)) new 0 xs, hw,
      length_replaceMarkedFrom 0 xs, ?_⟩
    rw [part?_replaceMarked, hw, Option.map_some, replaceMarked_seq]
    · rwa [List.append_nil]
    · rintro front' j back' rfl u hu
      exact habove _ hpos front' j (back' ++ i :: back) (by simp) u hu

/-! ## Objects -/

namespace Sharing

variable {root : Datum}

/-- Replacing an object changes the positions that have it and nothing else. -/
theorem replacedAt (s : Sharing root) {pos : List Nat} {target : Datum}
    (h : root.part? pos = some target) (new : Datum) :
    ReplacedAt root (fun other => s.same pos other = true) new (s.replace pos new) := by
  have hpart : ∀ other, s.same pos other = true → root.part? other = some target :=
    fun other hother => (s.part_eq hother).trans h
  apply replacedAt_replaceMarked
  · intro other hother
    exact ⟨target, hpart other hother⟩
  · intro front i back hfront
    rw [← Bool.not_eq_true]
    intro hinside
    have hself := hpart _ hinside
    rw [part?_append, hpart _ hfront, Option.bind_some] at hself
    exact part?_cons_ne_self target i back hself

/-- An item that stands nowhere else gives way to the new one, and the items around it stay. -/
theorem replace_item {shape : Shape} {front back : List Datum} {old : Datum}
    (s : Sharing (.seq shape (front ++ old :: back))) (new : Datum)
    (honly : ∀ other, s.same [front.length] other = true → other = [front.length]) :
    s.replace [front.length] new = .seq shape (front ++ new :: back) := by
  have hunmarked : ∀ other, other ≠ [front.length] → s.same [front.length] other = false := by
    intro other hne
    rw [← Bool.not_eq_true]
    exact fun hsame => hne (honly other hsame)
  rw [replace, replaceMarked_seq _ _ (hunmarked [] (by simp))]
  congr 1
  apply List.ext_getElem?
  intro i
  rw [getElem?_replaceMarkedFrom, Nat.zero_add]
  by_cases hi : i = front.length
  · subst hi
    rw [List.getElem?_append_right (Nat.le_refl _), List.getElem?_append_right (Nat.le_refl _),
      Nat.sub_self, List.getElem?_cons_zero, List.getElem?_cons_zero, Option.map_some,
      replaceMarked_of_marked old (s.refl [front.length])]
  · have hsame : ∀ x, replaceMarked (fun pos => s.same [front.length] (i :: pos)) new x = x :=
      fun x => replaceMarked_of_unmarked x _ fun pos _ _ => hunmarked _ (by simp [hi])
    rw [funext hsame, Option.map_id']
    simp only [List.getElem?_append, List.getElem?_cons]
    split
    · rfl
    · rw [if_neg (by omega), if_neg (by omega)]

end Sharing

private theorem resolveIndex?_natCast {length i : Nat} (h : i < length) :
    resolveIndex? length (i : Int) = some i := by
  have hindex : (if (i : Int) < 0 then (i : Int) + length else i) = i := if_neg (by omega)
  simp only [resolveIndex?, hindex]
  rw [if_pos (by omega)]
  rfl

private theorem nodeAt_of_part? {root target : Datum} {pos : List Nat}
    (h : root.part? pos = some target) :
    root.nodeAt (pos.map Int.ofNat) = .ok target := by
  induction pos generalizing root with
  | nil =>
      obtain rfl := Option.some.inj h
      rfl
  | cons i pos ih =>
      obtain ⟨shape, xs, x, rfl, hx, h⟩ := part?_cons_eq_some h
      have hlt : i < xs.length := (List.getElem?_eq_some_iff.1 hx).1
      have hget : (seq shape xs).get (i : Int) = .ok x := by
        simp only [get, items]
        rw [ok_bind, resolveIndex?_natCast hlt, Option.bind_some, hx]
        rfl
      unfold nodeAt
      rw [List.map_cons, List.foldlM_cons, Int.ofNat_eq_natCast, hget, ok_bind]
      exact ih h

private theorem position?_of_part? {root target : Datum} {pos : List Nat}
    (h : root.part? pos = some target) : root.position? (pos.map Int.ofNat) = some pos := by
  induction pos generalizing root with
  | nil => cases root <;> rfl
  | cons i pos ih =>
      obtain ⟨shape, xs, x, rfl, hx, h⟩ := part?_cons_eq_some h
      have hlt : i < xs.length := (List.getElem?_eq_some_iff.1 hx).1
      rw [List.map_cons, Int.ofNat_eq_natCast, position?, resolveIndex?_natCast hlt]
      simp [hx, ih h]

theorem replaceNode_of_part? {root target : Datum} {pos : List Nat} (new : Datum)
    (h : root.part? pos = some target) :
    root.replaceNode (pos.map Int.ofNat) new = .ok ((constantsShared root).replace pos new) := by
  unfold replaceNode
  rw [nodeAt_of_part? h, ok_bind, position?_of_part? h]
  rfl

private theorem isSameConstant_self_iff {v : Datum}
    (hv : v.isCollection = true ∨ ∃ name, v = .symbol name) :
    isSameConstant v v = true ↔ v = .seq .tuple [] := by
  constructor
  · intro h
    unfold isSameConstant at h
    split at h
    · simp [isCollection] at hv
    · simp [isCollection] at hv
    · rfl
    · cases h
  · rintro rfl
    rfl

/-- A collection or symbol is shared only if it is the empty tuple. -/
theorem constantsShared_same_iff {root target : Datum} {pos : List Nat}
    (h : root.part? pos = some target)
    (htarget : target.isCollection = true ∨ ∃ name, target = .symbol name) (other : List Nat) :
    (constantsShared root).same pos other = true ↔
      other = pos ∨ target = .seq .tuple [] ∧ root.part? other = some target := by
  have hsame : (constantsShared root).same pos other =
      (other == pos || isConstantAt root target other) := by
    simp only [constantsShared, h, Option.any_some]
  rw [hsame, Bool.or_eq_true, beq_iff_eq, isConstantAt_iff, isSameConstant_self_iff htarget]

end PageForms.Datum
