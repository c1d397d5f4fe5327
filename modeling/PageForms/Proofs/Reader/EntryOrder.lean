import PageForms.Proofs.Datum.DecEq
import PageForms.Proofs.Datum.Equality
import PageForms.Proofs.Reader.Origin

/-!
# The order of a map's entries

A key is refused if it equals one before it. Equality is symmetric between keys, so whether entries
make a map does not depend on their order, and neither does the map, as far as equality goes. Each
map keeps its entries in the order in which they are written.
-/

namespace PageForms

/-! ## Values that were read equal themselves -/

namespace Binary64

private theorem bounded_ne_nan (negative : Bool) (m : Nat) (q : Int) :
    bounded negative m q ≠ .nan := by
  unfold bounded
  split <;> exact Binary64.noConfusion

private theorem ofRatio_ne_nan (negative : Bool) (num den : Nat) :
    ofRatio negative num den ≠ .nan := by
  unfold ofRatio pack
  simp only
  split
  · exact Binary64.noConfusion
  · split <;> exact bounded_ne_nan _ _ _

private theorem Decimal.toBinary64_ne_nan (d : Decimal) : d.toBinary64 ≠ .nan := by
  unfold toBinary64 ofDecimal
  split
  · exact Binary64.noConfusion
  split
  · exact Binary64.noConfusion
  split
  · exact Binary64.noConfusion
  split <;> exact ofRatio_ne_nan _ _ _

end Binary64

theorem Datum.FromLexeme.equal_self {a : Datum} (h : a.FromLexeme) : a.equal a = true := by
  obtain ⟨t, -, hvalue⟩ := h
  rcases Reader.atomValue?_cases hvalue with ⟨-, s, rfl⟩ | ⟨-, rfl⟩ | ⟨-, hatom⟩
  · exact beq_self_eq_true s
  · exact beq_self_eq_true t.text
  rcases Reader.readAtom_cases hatom with ⟨rfl, -⟩ | ⟨rfl, -⟩ | ⟨rfl, -⟩ | ⟨n, rfl⟩ | ⟨d, -, rfl⟩ |
    rfl | ⟨name, rfl, -⟩ | rfl
  · rfl
  · rfl
  · rfl
  · exact beq_self_eq_true n
  · exact Binary64.equal_self d.toBinary64_ne_nan
  · exact beq_self_eq_true t.text
  · exact beq_self_eq_true name
  · exact beq_self_eq_true t.text

/-! ## Distinct keys in another order -/

namespace Entries

/-- Keys are distinct in whatever order they stand. -/
theorem Distinct.perm {es fs : Entries} (hes : Distinct es) (h : es.Perm fs) : Distinct fs := by
  have hhashable : ∀ e ∈ fs, e.1.hashable = true := fun e he => hes.hashable e (h.mem_iff.2 he)
  -- Equality is symmetric only between values that can be keys, so that goes into the relation.
  have hdistinct : es.Pairwise fun e f =>
      e.1.hashable = true → f.1.hashable = true → f.1.equal e.1 = false :=
    hes.distinct.imp fun hne _ _ => hne
  have hsymm : ∀ {e f : Datum × Datum},
      (e.1.hashable = true → f.1.hashable = true → f.1.equal e.1 = false) →
      f.1.hashable = true → e.1.hashable = true → e.1.equal f.1 = false := by
    intro e f hne hf he
    rw [Datum.equal_comm e.1 f.1 he]
    exact hne he hf
  refine ⟨hhashable, ((h.pairwise_iff hsymm).1 hdistinct).imp_of_mem ?_⟩
  intro e f he hf hne
  exact hne (hhashable e he) (hhashable f hf)

private theorem items_injective : Function.Injective items := by
  intro es fs h
  induction es generalizing fs with
  | nil =>
      cases fs with
      | nil => rfl
      | cons f fs => cases h
  | cons e es ih =>
      cases fs with
      | nil => cases h
      | cons f fs =>
          obtain ⟨hkey, hrest⟩ := List.cons.inj h
          obtain ⟨hvalue, hitems⟩ := List.cons.inj hrest
          rw [ih hitems, Prod.ext hkey hvalue]

end Entries

namespace Reader

/-- Keys and values are accepted as a map exactly if the keys are distinct, and the map has them in
the order given. -/
theorem buildMap_items_iff {place : Text.Position} {es : Entries} {v : Datum} :
    buildMap place (Entries.items es) = .ok v ↔ Entries.Distinct es ∧ v = .map es := by
  constructor
  · intro h
    obtain ⟨fs, rfl, hitems, hdistinct⟩ := buildMap_eq_ok h
    rw [Entries.items_injective hitems]
    exact ⟨hdistinct, rfl⟩
  · rintro ⟨hdistinct, rfl⟩
    exact buildMap_items hdistinct place

/-- Entries in another order are accepted if and only if they are accepted as they are, and make a
map that is equal; each map has its entries in its own order. -/
theorem buildMap_of_perm {es fs : Entries} (h : es.Perm fs)
    (hread : ∀ e ∈ es, e.1.WellFormed Datum.FromLexeme ∧ e.2.WellFormed Datum.FromLexeme)
    (place place' : Text.Position) :
    ((∃ v, buildMap place (Entries.items es) = .ok v) ↔
      ∃ w, buildMap place' (Entries.items fs) = .ok w) ∧
    ∀ v w, buildMap place (Entries.items es) = .ok v →
      buildMap place' (Entries.items fs) = .ok w →
      v = .map es ∧ w = .map fs ∧ v.equal w = true ∧ w.equal v = true := by
  have hself : ∀ e ∈ es, e.1.equal e.1 = true ∧ e.2.equal e.2 = true := by
    intro e he
    obtain ⟨hkey, hvalue⟩ := hread e he
    exact ⟨hkey.equal_self fun _ => Datum.FromLexeme.equal_self,
      hvalue.equal_self fun _ => Datum.FromLexeme.equal_self⟩
  constructor
  · simp only [buildMap_items_iff, exists_and_left, exists_eq, and_true]
    exact ⟨fun hes => hes.perm h, fun hfs => hfs.perm h.symm⟩
  · intro v w hv hw
    obtain ⟨-, rfl⟩ := buildMap_items_iff.1 hv
    obtain ⟨-, rfl⟩ := buildMap_items_iff.1 hw
    exact ⟨rfl, rfl, Datum.equal_map_of_perm h hself,
      Datum.equal_map_of_perm h.symm fun e he => hself e (h.mem_iff.2 he)⟩

/-- Two entries, one with a vector for a key and a map for a value, both ways round. -/
theorem buildMap_of_perm_swapped :
    ∃ (es fs : Entries) (v w : Datum),
      es = [(.float (.infinite false), .bool true), (.vector [.int 1], .map [])] ∧
      fs = [(.vector [.int 1], .map []), (.float (.infinite false), .bool true)] ∧ es.Perm fs ∧
      (∀ e ∈ es, e.1.WellFormed Datum.FromLexeme ∧ e.2.WellFormed Datum.FromLexeme) ∧
      buildMap .start (Entries.items es) = .ok v ∧ buildMap .start (Entries.items fs) = .ok w ∧
      v.equal w = true ∧ w.equal v = true := by
  have hread : read "1e999 true [1] \x7b\x7d" =
      .ok [.float (.infinite false), .bool true, .vector [.int 1], .map []] := by
    decide +kernel
  have hwell := wellFormed_of_read hread
  have hperm : [(Datum.float (.infinite false), Datum.bool true),
      (Datum.vector [.int 1], Datum.map [])].Perm
      [(.vector [.int 1], .map []), (.float (.infinite false), .bool true)] := .swap _ _ _
  have hentries : ∀ e ∈ [(Datum.float (.infinite false), Datum.bool true),
      (Datum.vector [.int 1], Datum.map [])],
      e.1.WellFormed Datum.FromLexeme ∧ e.2.WellFormed Datum.FromLexeme := by
    intro e he
    simp only [List.mem_cons, List.not_mem_nil, or_false] at he
    rcases he with rfl | rfl
    · exact ⟨hwell _ (by simp), hwell _ (by simp)⟩
    · exact ⟨hwell _ (by simp), hwell _ (by simp)⟩
  obtain ⟨haccepts, hequal⟩ := buildMap_of_perm hperm hentries .start .start
  have hv : ∃ v, buildMap .start (Entries.items [(Datum.float (.infinite false), Datum.bool true),
      (Datum.vector [.int 1], Datum.map [])]) = .ok v := ⟨_, rfl⟩
  obtain ⟨w, hw⟩ := haccepts.1 hv
  obtain ⟨v, hv⟩ := hv
  obtain ⟨-, -, hvw, hwv⟩ := hequal v w hv hw
  exact ⟨_, _, v, w, rfl, rfl, hperm, hentries, hv, hw, hvw, hwv⟩

end Reader

end PageForms
