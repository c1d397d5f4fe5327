/-!
# Values by name

Lists of named values in the order in which the names were first given.
-/

namespace PageForms

abbrev Named (α : Type) := List (String × α)

namespace Named

variable {α : Type}

def insert (entries : Named α) (name : String) (value : α) : Named α :=
  match entries with
  | [] => [(name, value)]
  | (n, v) :: rest => if n = name then (n, value) :: rest else (n, v) :: insert rest name value

def ofList (pairs : List (String × α)) : Named α :=
  pairs.foldl (fun entries p => insert entries p.1 p.2) []

theorem insert_of_not_mem {entries : Named α} {name : String} (value : α)
    (h : name ∉ entries.map Prod.fst) : insert entries name value = entries ++ [(name, value)] := by
  induction entries with
  | nil => rfl
  | cons entry entries ih =>
      rw [List.map_cons, List.mem_cons, not_or] at h
      rw [insert, if_neg (Ne.symm h.1), ih h.2, List.cons_append]

/-- Values with distinct names stay as they are. -/
theorem ofList_of_nodup {pairs : List (String × α)} (h : (pairs.map Prod.fst).Nodup) :
    ofList pairs = pairs := by
  have hfold : ∀ acc : Named α, ((acc ++ pairs).map Prod.fst).Nodup →
      pairs.foldl (fun entries p => insert entries p.1 p.2) acc = acc ++ pairs := by
    clear h
    induction pairs with
    | nil => intro acc _; exact (List.append_nil acc).symm
    | cons p pairs ih =>
        intro acc hacc
        have hnew : p.1 ∉ acc.map Prod.fst := by
          rw [List.map_append, List.map_cons, List.nodup_append] at hacc
          intro hmem
          exact hacc.2.2 p.1 hmem p.1 (List.mem_cons_self ..) rfl
        rw [List.append_cons] at hacc ⊢
        rw [List.foldl_cons, insert_of_not_mem p.2 hnew]
        exact ih _ hacc
  exact hfold [] h

def find? (entries : Named α) (name : String) : Option α :=
  (List.find? (fun p => p.1 == name) entries).map Prod.snd

end Named

end PageForms
