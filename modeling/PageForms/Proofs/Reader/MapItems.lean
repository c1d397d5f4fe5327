import PageForms.Proofs.Datum.Lexemes
import PageForms.Reader.Basic

/-!
# Between the braces of a map

Pairing up the items between two braces succeeds exactly when they are the keys and values of
entries with usable and distinct keys, and gives these entries in their order.
-/

namespace PageForms.Entries

def items (es : Entries) : List Datum :=
  es.flatMap fun e => [e.1, e.2]

theorem items_cons (e : Datum × Datum) (es : Entries) :
    items (e :: es) = e.1 :: e.2 :: items es := rfl

theorem length_items (es : Entries) : (items es).length = 2 * es.length := by
  induction es with
  | nil => rfl
  | cons e es ih =>
      simp only [items_cons, List.length_cons, ih]
      omega

theorem find?_isSome_eq_false_iff {es : Entries} {key : Datum} :
    (find? es key).isSome = false ↔ ∀ e ∈ es, key.equal e.1 = false := by
  rw [find?, Option.isSome_map, ← Bool.not_eq_true, List.find?_isSome]
  simp

end PageForms.Entries

namespace PageForms.Reader

private theorem pairUp_cons {place : Text.Position} {acc : Entries} {e : Datum × Datum}
    (rest : List Datum) (hhash : e.1.hashable = true)
    (hnew : (Entries.find? acc e.1).isSome = false) :
    pairUp place acc (e.1 :: e.2 :: rest) = pairUp place (acc ++ [e]) rest := by
  conv => lhs; unfold pairUp
  rw [hhash, hnew]
  rfl

private theorem pairUp_items {place : Text.Position} {acc es : Entries}
    (hhash : ∀ e ∈ es, e.1.hashable = true)
    (hdistinct : (acc ++ es).Pairwise fun e f => f.1.equal e.1 = false) :
    pairUp place acc (Entries.items es) = .ok (acc ++ es) := by
  induction es generalizing acc with
  | nil =>
      rw [List.append_nil]
      rfl
  | cons e es ih =>
      have hnew : (Entries.find? acc e.1).isSome = false := by
        rw [Entries.find?_isSome_eq_false_iff]
        intro a ha
        exact (List.pairwise_append.1 hdistinct).2.2 a ha e (by simp)
      have happend : acc ++ e :: es = acc ++ [e] ++ es := by simp
      rw [happend] at hdistinct ⊢
      rw [Entries.items_cons, pairUp_cons _ (hhash e (by simp)) hnew]
      apply ih _ hdistinct
      intro f hf
      exact hhash f (by simp [hf])

/-- The items of distinct entries make up the map with these entries. -/
theorem buildMap_items {es : Entries} (h : Entries.Distinct es) (place : Text.Position) :
    buildMap place (Entries.items es) = .ok (.map es) := by
  have heven : ¬ (Entries.items es).length % 2 = 1 := by
    rw [Entries.length_items]
    omega
  have hpairs : pairUp place [] (Entries.items es) = .ok ([] ++ es) :=
    pairUp_items h.hashable h.distinct
  unfold buildMap
  rw [if_neg heven, hpairs]
  rfl

private theorem pairUp_eq_ok {place : Text.Position} {acc es : Entries} {xs : List Datum}
    (h : pairUp place acc xs = .ok es) (hacc : acc.Pairwise fun e f => f.1.equal e.1 = false) :
    ∃ new, es = acc ++ new ∧ xs = Entries.items new ∧ (∀ e ∈ new, e.1.hashable = true) ∧
      es.Pairwise fun e f => f.1.equal e.1 = false := by
  fun_induction pairUp place acc xs with
  | case1 acc =>
      cases h
      refine ⟨[], by simp, rfl, ?_, hacc⟩
      intro e he
      cases he
  | case2 => cases h
  | case3 acc k v rest hhash =>
      cases htext : k.text? <;> rw [htext] at h <;> cases h
  | case4 acc k v rest hhash hfound =>
      cases htext : k.text? <;> rw [htext] at h <;> cases h
  | case5 acc k v rest hhash hnew ih =>
      rw [Bool.not_eq_true, Entries.find?_isSome_eq_false_iff] at hnew
      have hacc' : (acc ++ [(k, v)]).Pairwise fun e f => f.1.equal e.1 = false := by
        rw [List.pairwise_append]
        refine ⟨hacc, List.pairwise_singleton _ _, ?_⟩
        intro a ha b hb
        rw [List.mem_singleton] at hb
        subst hb
        exact hnew a ha
      obtain ⟨new, hes, hrest, hkeys, hdistinct⟩ := ih h hacc'
      refine ⟨(k, v) :: new, ?_, ?_, ?_, hdistinct⟩
      · rw [hes, List.append_assoc]
        rfl
      · rw [hrest, Entries.items_cons]
      · intro e he
        rcases List.mem_cons.1 he with rfl | he
        · simpa using hhash
        · exact hkeys e he

/-- A map that was built has distinct entries, and they are the items it was built from. -/
theorem buildMap_eq_ok {place : Text.Position} {xs : List Datum} {v : Datum}
    (h : buildMap place xs = .ok v) :
    ∃ es, v = .map es ∧ xs = Entries.items es ∧ Entries.Distinct es := by
  unfold buildMap at h
  split at h
  · cases h
  · cases hpairs : pairUp place [] xs with
    | error e =>
        rw [hpairs] at h
        cases h
    | ok es =>
        rw [hpairs] at h
        cases h
        obtain ⟨new, hes, hxs, hkeys, hdistinct⟩ := pairUp_eq_ok hpairs .nil
        rw [List.nil_append] at hes
        subst hes
        exact ⟨es, rfl, hxs, ⟨hkeys, hdistinct⟩⟩

end PageForms.Reader
