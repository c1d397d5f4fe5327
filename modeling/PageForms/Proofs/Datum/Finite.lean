import PageForms.Proofs.Datum.Lexemes

/-!
# Values with finite numbers

`Datum.isFinite` says that no number in a value is infinite or undefined. Like `Datum.writable` it
is a condition on the atoms of a value, and a well-formed value that meets both consists of atoms
that meet both.
-/

namespace PageForms.Datum

mutual

def isFinite : Datum → Bool
  | .float (.finite ..) => true
  | .float _ => false
  | .seq _ xs => allFinite xs
  | .map es => entriesFinite es
  | _ => true

def allFinite : List Datum → Bool
  | [] => true
  | x :: xs => isFinite x && allFinite xs

def entriesFinite : List (Datum × Datum) → Bool
  | [] => true
  | (k, v) :: es => isFinite k && isFinite v && entriesFinite es

end

private theorem allFinite_eq_all (xs : List Datum) : allFinite xs = xs.all isFinite := by
  induction xs with
  | nil => rfl
  | cons x xs ih => rw [allFinite, ih, List.all_cons]

private theorem entriesFinite_eq_all (es : Entries) :
    entriesFinite es = es.all fun e => e.1.isFinite && e.2.isFinite := by
  induction es with
  | nil => rfl
  | cons e es ih => rw [entriesFinite, ih, List.all_cons]

theorem allWritable_eq_all (xs : List Datum) : allWritable xs = xs.all writable := by
  induction xs with
  | nil => rfl
  | cons x xs ih => rw [allWritable, ih, List.all_cons]

theorem entriesWritable_eq_all (es : Entries) :
    entriesWritable es = es.all fun e => e.1.writable && e.2.writable := by
  induction es with
  | nil => rfl
  | cons e es ih => rw [entriesWritable, ih, List.all_cons]

/-- Every number in the value has a text that reads back: the floating-point ones are finite and the
integers are short enough. -/
def isPrintable (v : Datum) : Bool :=
  v.writable && v.isFinite

theorem isPrintable_seq (shape : Shape) (xs : List Datum) :
    (seq shape xs).isPrintable = xs.all isPrintable := by
  rw [isPrintable, writable, isFinite, allWritable_eq_all, allFinite_eq_all]
  induction xs with
  | nil => rfl
  | cons x xs ih =>
      simp only [List.all_cons, isPrintable] at ih ⊢
      rw [← ih]
      ac_rfl

private theorem isPrintable_map (es : Entries) :
    (map es).isPrintable = es.all fun e => e.1.isPrintable && e.2.isPrintable := by
  rw [isPrintable, writable, isFinite, entriesWritable_eq_all, entriesFinite_eq_all]
  induction es with
  | nil => rfl
  | cons e es ih =>
      simp only [List.all_cons, isPrintable] at ih ⊢
      rw [← ih]
      ac_rfl

theorem WellFormed.and_isPrintable {p : Datum → Prop} {v : Datum} (h : WellFormed p v)
    (hv : v.isPrintable = true) : WellFormed (fun a => p a ∧ a.isPrintable = true) v := by
  induction h with
  | atom hatom hp => exact .atom hatom ⟨hp, hv⟩
  | seq hshape _ ih =>
      rw [isPrintable_seq, List.all_eq_true] at hv
      exact .seq hshape fun x hx => ih x hx (hv x hx)
  | map _ _ hes ihkeys ihvalues =>
      simp only [isPrintable_map, List.all_eq_true, Bool.and_eq_true] at hv
      exact .map (fun e he => ihkeys e he (hv e he).1) (fun e he => ihvalues e he (hv e he).2) hes

end PageForms.Datum
