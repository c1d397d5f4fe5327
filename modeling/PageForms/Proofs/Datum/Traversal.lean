import PageForms.Proofs.Datum.Sharing

/-!
# The order of a replacement

Replacing walks over a value and asks its predicate for one node after the other. With a predicate
that notes what it is asked for, the walk gives the same result, and the notes are the exposed parts
in the order of their positions, each of them once.
-/

namespace PageForms.Datum

variable {p : Datum → Bool} {f : Datum → Except Fault Datum}

/-! ## The exposed positions -/

mutual

/-- The positions of the exposed parts, in order. -/
def positions (p : Datum → Bool) : Datum → List (List Nat)
  | .seq shape xs => [] :: (if p (.seq shape xs) then [] else positionsFrom p 0 xs)
  | _ => [[]]

def positionsFrom (p : Datum → Bool) (n : Nat) : List Datum → List (List Nat)
  | [] => []
  | x :: xs => (positions p x).map (n :: ·) ++ positionsFrom p (n + 1) xs

end

private theorem mem_positionsFrom_iff {n : Nat} {xs : List Datum} {pos : List Nat} :
    pos ∈ positionsFrom p n xs ↔
      ∃ k x rest, pos = (n + k) :: rest ∧ xs[k]? = some x ∧ rest ∈ positions p x := by
  induction xs generalizing n with
  | nil => simp [positionsFrom]
  | cons x xs ih =>
      rw [positionsFrom, List.mem_append, List.mem_map, ih]
      constructor
      · rintro (⟨rest, hrest, rfl⟩ | ⟨k, y, rest, rfl, hy, hrest⟩)
        · exact ⟨0, x, rest, rfl, rfl, hrest⟩
        · exact ⟨k + 1, y, rest, by rw [Nat.add_right_comm, Nat.add_assoc], hy, hrest⟩
      · rintro ⟨k, y, rest, rfl, hy, hrest⟩
        cases k with
        | zero =>
            cases hy
            exact .inl ⟨rest, hrest, rfl⟩
        | succ k =>
            exact .inr ⟨k, y, rest, by rw [Nat.add_right_comm, Nat.add_assoc], hy, hrest⟩

private theorem nil_mem_positions (root : Datum) : [] ∈ positions p root := by
  cases root <;> simp [positions]

private theorem cons_mem_positions_iff {root : Datum} {i : Nat} {pos : List Nat} :
    i :: pos ∈ positions p root ↔
      ∃ shape xs x, root = .seq shape xs ∧ p root = false ∧ xs[i]? = some x ∧
        pos ∈ positions p x := by
  cases root with
  | seq shape xs =>
      rw [positions, List.mem_cons]
      cases hp : p (.seq shape xs) with
      | true => simp
      | false =>
          rw [if_neg (by simp), mem_positionsFrom_iff]
          constructor
          · rintro (h | ⟨k, x, rest, h, hx, hrest⟩)
            · cases h
            · cases h
              rw [Nat.zero_add]
              exact ⟨shape, xs, x, rfl, rfl, hx, hrest⟩
          · rintro ⟨_, _, x, h, -, hx, hpos⟩
            cases h
            exact .inr ⟨i, x, pos, by rw [Nat.zero_add], hx, hpos⟩
  | _ => simp [positions]

private theorem mem_positions_iff {root : Datum} {pos : List Nat} :
    pos ∈ positions p root ↔ ∃ v, Exposed p root pos v := by
  induction pos generalizing root with
  | nil =>
      constructor
      · intro _
        exact ⟨root, exposed_nil_iff.2 rfl⟩
      · intro _
        exact nil_mem_positions root
  | cons i pos ih =>
      rw [cons_mem_positions_iff]
      constructor
      · rintro ⟨shape, xs, x, hroot, hp, hx, hpos⟩
        obtain ⟨v, hv⟩ := ih.1 hpos
        exact ⟨v, exposed_cons_iff.2 ⟨shape, xs, x, hroot, hp, hx, hv⟩⟩
      · rintro ⟨v, hv⟩
        obtain ⟨shape, xs, x, hroot, hp, hx, hv⟩ := exposed_cons_iff.1 hv
        exact ⟨shape, xs, x, hroot, hp, hx, ih.2 ⟨v, hv⟩⟩

mutual

/-- What is around comes first, then items from left to right: no position is met twice. -/
theorem pairwise_positions : ∀ root : Datum, (positions p root).Pairwise (List.Lex (· < ·))
  | .seq shape xs => by
      rw [positions, List.pairwise_cons]
      constructor
      · intro pos hpos
        split at hpos
        · cases hpos
        · obtain ⟨k, x, rest, rfl, -, -⟩ := mem_positionsFrom_iff.1 hpos
          exact .nil
      · split
        · exact .nil
        · exact pairwise_positionsFrom 0 xs
  | .nil | .bool _ | .int _ | .float _ | .str _ | .symbol _ | .keyword _ | .literal _ | .map _ => by
      simp [positions]

private theorem pairwise_positionsFrom : ∀ (n : Nat) (xs : List Datum),
    (positionsFrom p n xs).Pairwise (List.Lex (· < ·))
  | _, [] => .nil
  | n, x :: xs => by
      rw [positionsFrom, List.pairwise_append, List.pairwise_map]
      refine ⟨(pairwise_positions x).imp fun h => .cons h, pairwise_positionsFrom (n + 1) xs, ?_⟩
      intro pos hpos pos' hpos'
      obtain ⟨rest, -, rfl⟩ := List.mem_map.1 hpos
      obtain ⟨k, y, rest', rfl, -, -⟩ := mem_positionsFrom_iff.1 hpos'
      exact .rel (by omega)

end

mutual

private theorem parts_visited : ∀ root : Datum,
    List.Forall₂ (fun pos v => root.part? pos = some v) (positions p root) (root.visited p)
  | .seq shape xs => by
      rw [positions, visited]
      refine .cons (part?_nil _) ?_
      split
      · exact .nil
      · exact parts_visitedItems shape [] xs
  | .nil | .bool _ | .int _ | .float _ | .str _ | .symbol _ | .keyword _ | .literal _ | .map _ => by
      simp [positions, visited]

private theorem parts_visitedItems : ∀ (shape : Shape) (front xs : List Datum),
    List.Forall₂ (fun pos v => (seq shape (front ++ xs)).part? pos = some v)
      (positionsFrom p front.length xs) (visitedItems p xs)
  | _, _, [] => by
      rw [positionsFrom, visitedItems]
      exact .nil
  | shape, front, x :: xs => by
      rw [positionsFrom, visitedItems]
      have hitem : (front ++ x :: xs)[front.length]? = some x := by simp
      have hrest := parts_visitedItems shape (front ++ [x]) xs
      rw [List.length_append, List.length_singleton, ← List.append_cons] at hrest
      refine List.rel_append ?_ hrest
      rw [List.forall₂_map_left_iff]
      apply (parts_visited x).imp
      intro pos v hv
      rw [part?_seq_cons, hitem, Option.bind_some, hv]

end

/-! ## The walk -/

mutual

/-- The walk of a replacement, with a predicate and a function that may have effects. -/
def replaceWhereM {m : Type → Type} [Monad m] (p : Datum → m Bool) (f : Datum → m Datum) :
    Datum → m Datum
  | .seq shape xs => do
    if ← p (.seq shape xs) then f (.seq shape xs)
    else return .seq shape (← replaceWhereInM p f xs)
  | v => do if ← p v then f v else return v

def replaceWhereInM {m : Type → Type} [Monad m] (p : Datum → m Bool) (f : Datum → m Datum) :
    List Datum → m (List Datum)
  | [] => return []
  | x :: xs => do
    let y ← replaceWhereM p f x
    let ys ← replaceWhereInM p f xs
    return y :: ys

end

abbrev Noting := StateT (List Datum) (Except Fault)

def noting (p : Datum → Bool) (v : Datum) : Noting Bool := do
  modify (· ++ [v])
  return p v

mutual

/-- A predicate without effects makes the walk the replacement itself. -/
theorem replaceWhereM_ok : ∀ root : Datum,
    replaceWhereM (fun v => .ok (p v)) f root = root.replaceWhere p f
  | .seq shape xs => by
      rw [replaceWhereM, replaceWhere, ok_bind, replaceWhereInM_ok xs]
      rfl
  | .nil | .bool _ | .int _ | .float _ | .str _ | .symbol _ | .keyword _ | .literal _ | .map _ => by
      simp only [replaceWhereM, replaceWhere, ok_bind]
      rfl

private theorem replaceWhereInM_ok : ∀ xs : List Datum,
    replaceWhereInM (fun v => .ok (p v)) f xs = replaceWhereIn p f xs
  | [] => rfl
  | x :: xs => by
      rw [replaceWhereInM, replaceWhereIn, replaceWhereM_ok x, replaceWhereInM_ok xs]

end

private theorem run_noting_bind (v : Datum) (next : Bool → Noting Datum) (notes : List Datum) :
    (noting p v >>= next).run notes = (next (p v)).run (notes ++ [v]) := rfl

private theorem run_lift_eq_map (x : Except Fault Datum) (notes : List Datum) :
    (StateT.lift x : Noting Datum).run notes = (fun result => (result, notes)) <$> x := by
  cases x <;> rfl

mutual

/-- A predicate that notes what it is asked for notes the visited nodes. -/
theorem run_replaceWhereM : ∀ (root : Datum) (notes : List Datum),
    (replaceWhereM (noting p) (fun v => StateT.lift (f v)) root).run notes =
      (fun result => (result, notes ++ root.visited p)) <$> root.replaceWhere p f
  | .seq shape xs, notes => by
      rw [replaceWhereM, replaceWhere, visited, run_noting_bind]
      split
      · rw [run_lift_eq_map]
      · rw [StateT.run_bind, run_replaceWhereInM xs]
        cases replaceWhereIn p f xs with
        | error fault => rfl
        | ok ys => simp
  | .nil, notes | .bool _, notes | .int _, notes | .float _, notes | .str _, notes
  | .symbol _, notes | .keyword _, notes | .literal _, notes | .map _, notes => by
      simp only [replaceWhereM, replaceWhere, visited, run_noting_bind]
      split
      · rw [run_lift_eq_map]
      · rfl

private theorem run_replaceWhereInM : ∀ (xs notes : List Datum),
    (replaceWhereInM (noting p) (fun v => StateT.lift (f v)) xs).run notes =
      (fun results => (results, notes ++ visitedItems p xs)) <$> replaceWhereIn p f xs
  | [], notes => by
      rw [replaceWhereInM, replaceWhereIn, visitedItems, List.append_nil]
      rfl
  | x :: xs, notes => by
      rw [replaceWhereInM, replaceWhereIn, visitedItems, StateT.run_bind, run_replaceWhereM x]
      cases x.replaceWhere p f with
      | error fault => rfl
      | ok y =>
          rw [Except.map_ok, ok_bind, ok_bind, StateT.run_bind, run_replaceWhereInM xs]
          cases replaceWhereIn p f xs with
          | error fault => rfl
          | ok ys => simp

end

/-! ## Outermost replacement -/

/-- The nodes are the exposed parts, each of them once, in the order of their positions. -/
def AreExposedInOrder (p : Datum → Bool) (root : Datum) (nodes : List Datum) : Prop :=
  ∃ positions : List (List Nat), positions.Pairwise (List.Lex (· < ·)) ∧
    (∀ pos, pos ∈ positions ↔ ∃ v, Exposed p root pos v) ∧
    List.Forall₂ (fun pos v => root.part? pos = some v) positions nodes

/-- Replacing touches exactly the exposed parts, asking the predicate once for each of them, in the
order of their positions. An object is replaced at all positions that have it, and nothing else is
changed: only the subtree at one position if it stands nowhere else. In a value whose nodes were
made one by one this is so for every collection and symbol but the empty tuple. -/
theorem replaceWhere_outermost (p : Datum → Bool) (f : Datum → Except Fault Datum)
    (root : Datum) :
    (∀ result, root.replaceWhere p f = .ok result ↔
      ∀ pos v, Exposed p root pos v → ∃ w, result.part? pos = some w ∧ Replaced p f v w) ∧
    ((∃ result, root.replaceWhere p f = .ok result) ↔
      ∀ pos v, Exposed p root pos v → p v = true → ∃ w, f v = .ok w) ∧
    (replaceWhereM (fun v => .ok (p v)) f root = root.replaceWhere p f ∧
      (replaceWhereM (noting p) (fun v => StateT.lift (f v)) root).run [] =
        (fun result => (result, root.visited p)) <$> root.replaceWhere p f ∧
      AreExposedInOrder p root (root.visited p)) ∧
    (∀ (s : Sharing root) (pos : List Nat) (target new : Datum), root.part? pos = some target →
      ReplacedAt root (fun other => s.same pos other = true) new (s.replace pos new) ∧
      ((∀ other, s.same pos other = true → other = pos) →
        ReplacedAt root (fun other => other = pos) new (s.replace pos new))) ∧
    ∀ pos target new, root.part? pos = some target →
      (target.isCollection = true ∨ ∃ name, target = .symbol name) →
      ∃ result, root.replaceNode (pos.map Int.ofNat) new = .ok result ∧
        (target ≠ .seq .tuple [] → ReplacedAt root (fun other => other = pos) new result) ∧
        (target = .seq .tuple [] →
          ReplacedAt root (fun other => root.part? other = some (.seq .tuple [])) new result) := by
  refine ⟨?_, ⟨?_, exists_replaceWhere root⟩, ⟨replaceWhereM_ok root, ?_, ?_⟩, ?_, ?_⟩
  · intro result
    exact ⟨fun h pos v => exists_replaced h, replaceWhere_of_replaced root result⟩
  · rintro ⟨result, hresult⟩ pos v hv hp
    obtain ⟨w, -, hw⟩ := exists_replaced hresult hv
    cases hw with
    | matched _ h => exact ⟨w, h⟩
    | sequence hp' _ | leaf hp' _ =>
        rw [hp] at hp'
        cases hp'
  · exact run_replaceWhereM root []
  · exact ⟨positions p root, pairwise_positions root, fun _ => mem_positions_iff,
      parts_visited root⟩
  · intro s pos target new hpart
    have hreplaced := s.replacedAt hpart new
    refine ⟨hreplaced, fun honly => hreplaced.congr fun other => ?_⟩
    exact ⟨honly other, fun h => h ▸ s.refl pos⟩
  · intro pos target new hpart htarget
    have hreplaced := (constantsShared root).replacedAt hpart new
    have hsame := constantsShared_same_iff hpart htarget
    refine ⟨_, replaceNode_of_part? new hpart, ?_, ?_⟩
    · intro htuple
      exact hreplaced.congr fun other => (hsame other).trans (by simp [htuple])
    · rintro rfl
      refine hreplaced.congr fun other => (hsame other).trans ?_
      constructor
      · rintro (rfl | ⟨-, hother⟩)
        · exact hpart
        · exact hother
      · exact fun hother => .inr ⟨rfl, hother⟩

/-- Two comments of a page: both forms have the symbol of comments as their head. -/
def comments : Datum :=
  .list [.seq .form [.symbol "$comment", .str "a"], .seq .form [.symbol "$comment", .str "b"]]

/-- Both heads are one object, as if the page had been read. -/
def commentsShared : Sharing comments where
  same pos other :=
    other == pos || ([[0, 0], [1, 0]].contains pos && [[0, 0], [1, 0]].contains other)
  refl pos := by rw [beq_self_eq_true, Bool.true_or]
  part_eq := by
    intro pos other h
    simp only [Bool.or_eq_true, beq_iff_eq, Bool.and_eq_true, List.contains_eq_mem,
      decide_eq_true_eq, List.mem_pair] at h
    rcases h with rfl | ⟨rfl | rfl, rfl | rfl⟩ <;> rfl

/-- Vectors inside vectors and maps are not looked at, of two equal vectors one is replaced, and of
a symbol that stands in two places both. -/
theorem replaceWhere_outermost_vectors :
    (∃ inner entry root result : Datum, inner = .vector [.vector [.nil]] ∧
      entry = .map [(.symbol "k", inner)] ∧ root = .list [inner, entry, inner] ∧
      root.replaceWhere isVector (fun v => .ok (.vector [v])) =
        .ok (.list [.vector [inner], entry, .vector [inner]]) ∧
      AreExposedInOrder isVector root [root, inner, entry, inner] ∧
      root.replaceNode [0] entry = .ok result ∧
      ReplacedAt root (fun other => other = [0]) entry result) ∧
    (commentsShared.replace [0, 0] .nil).part? [1, 0] = some .nil := by
  obtain ⟨inner, hinner⟩ : ∃ v : Datum, v = .vector [.vector [.nil]] := ⟨_, rfl⟩
  obtain ⟨entry, hentry⟩ : ∃ v : Datum, v = .map [(.symbol "k", inner)] := ⟨_, rfl⟩
  obtain ⟨-, -, ⟨-, -, hvisits⟩, -, hnode⟩ := replaceWhere_outermost isVector
    (fun v => .ok (.vector [v])) (.list [inner, entry, inner])
  obtain ⟨result, hresult, hreplaced, -⟩ := hnode [0] inner entry rfl (.inl (by rw [hinner]; rfl))
  obtain ⟨-, -, -, hshared, -⟩ := replaceWhere_outermost isVector .ok comments
  have hvisited : (list [inner, entry, inner]).visited isVector =
      [.list [inner, entry, inner], inner, entry, inner] := by
    rw [hentry, hinner]
    rfl
  rw [hvisited] at hvisits
  refine ⟨⟨inner, entry, _, result, hinner, hentry, rfl, ?_, hvisits, hresult, hreplaced ?_⟩, ?_⟩
  · rw [hentry, hinner]
    rfl
  · rw [hinner]
    intro h
    cases h
  · exact (hshared commentsShared [0, 0] _ .nil rfl).1.replaced [1, 0] (by decide)

/-- Two empty tuples are one node: replacing the first replaces the second. -/
theorem empty_tuples_replaced_together :
    ∃ root result : Datum, root = .list [.seq .tuple [], .seq .tuple []] ∧
      root.part? [0] = some (.seq .tuple []) ∧ (seq .tuple []).isCollection = true ∧
      root.replaceNode [0] (.symbol "x") = .ok result ∧
      ¬ReplacedAt root (fun other => other = [0]) (.symbol "x") result := by
  refine ⟨_, .list [.symbol "x", .symbol "x"], rfl, rfl, rfl, rfl, ?_⟩
  intro h
  have hsecond := h.apart [1] (by rintro pos rfl; decide)
  cases hsecond

end PageForms.Datum
