import PageForms.Files.Path
import PageForms.Proofs.Except

/-!
# Where paths lead

Following names that go down only puts them behind the place they start from, and the path of a
name in a directory is one name longer than that of the directory. `waypoints` lists the places
that following a path passes through.
-/

namespace PageForms.Path

private theorem follow_append (place parts more : List String) :
    follow place (parts ++ more) = follow (follow place parts) more :=
  List.foldl_append ..

private theorem follow_of_down {parts : List String} (h : ".." ∉ parts) (place : List String) :
    follow place parts = place ++ parts := by
  induction parts generalizing place with
  | nil => rw [List.append_nil]; rfl
  | cons part parts ih =>
      have hpart : part ≠ ".." := fun heq => h (by simp [heq])
      have hrest : ".." ∉ parts := fun hmem => h (by simp [hmem])
      calc follow place (part :: parts)
        _ = follow (place ++ [part]) parts := by rw [follow, List.foldl_cons, if_neg hpart]; rfl
        _ = place ++ [part] ++ parts := ih hrest _
        _ = place ++ part :: parts := by rw [List.append_assoc]; rfl

/-! ## Names -/

def isName (name : String) : Bool :=
  name != "" && name != "." && name != ".." && !name.toList.contains '/' &&
    !name.toList.contains '\x00'

theorem splitSlashes_of_not_mem {cs : List Char} (h : '/' ∉ cs) : splitSlashes cs = [cs] := by
  induction cs with
  | nil => rfl
  | cons c cs ih =>
      have hc : c ≠ '/' := fun heq => h (by simp [heq])
      rw [splitSlashes, if_neg hc, ih fun hmem => h (by simp [hmem])]

private theorem start_of_not_mem {cs : List Char} (h : '/' ∉ cs) : PathStart.ofText cs = .here := by
  unfold PathStart.ofText
  split
  · simp at h
  · simp at h
  · simp at h
  · rfl

private theorem ofText_of_isName {name : String} (h : isName name = true) :
    ofText name = ⟨.here, [name]⟩ := by
  simp only [isName, Bool.and_eq_true, bne_iff_ne, ne_eq, Bool.not_eq_true', List.contains_eq_mem,
    decide_eq_false_iff_not] at h
  obtain ⟨⟨⟨⟨hempty, hdot⟩, -⟩, hslash⟩, -⟩ := h
  simp [ofText, start_of_not_mem hslash, splitSlashes_of_not_mem hslash, hempty, hdot]

theorem child_of_isName {name : String} (h : isName name = true) (p : Path) :
    p.child name = { p with parts := p.parts ++ [name] } := by
  rw [child, ofText_of_isName h]
  rfl

theorem ne_up_of_isName {name : String} (h : isName name = true) : name ≠ ".." := by
  rintro rfl
  revert h
  decide

private theorem not_contains_null_of_isName {name : String} (h : isName name = true) :
    name.toList.contains '\x00' = false := by
  rw [isName, Bool.and_eq_true] at h
  simpa using h.2

theorem resolve_append {names : List String} (h : names.all isName = true) (p : Path)
    (cwd : List String) :
    ({ p with parts := p.parts ++ names } : Path).resolve cwd = p.resolve cwd ++ names := by
  have hdown : ".." ∉ names := fun hmem => ne_up_of_isName (List.all_eq_true.1 h _ hmem) rfl
  calc follow (if p.absolute then [] else cwd) (p.parts ++ names)
    _ = follow (p.resolve cwd) names := follow_append ..
    _ = p.resolve cwd ++ names := follow_of_down hdown _

theorem hasNull_append {names : List String} (h : names.all isName = true) (p : Path) :
    ({ p with parts := p.parts ++ names } : Path).hasNull = p.hasNull := by
  have hnone : (names.any fun part => part.toList.contains '\x00') = false := by
    rw [List.any_eq_false]
    intro name hname
    rw [not_contains_null_of_isName (List.all_eq_true.1 h _ hname)]
    exact Bool.false_ne_true
  rw [hasNull, List.any_append, hnone, Bool.or_false, hasNull]

theorem resolve_child {name : String} (h : isName name = true) (p : Path) (cwd : List String) :
    (p.child name).resolve cwd = p.resolve cwd ++ [name] := by
  rw [child_of_isName h]
  exact resolve_append (by simp [h]) p cwd

theorem hasNull_child {name : String} (h : isName name = true) (p : Path) :
    (p.child name).hasNull = p.hasNull := by
  rw [child_of_isName h]
  exact hasNull_append (by simp [h]) p

/-! ## Places on the way -/

def next (place : List String) (part : String) : List String :=
  if part = ".." then place.dropLast else place ++ [part]

/-- The places that following some names passes through behind the first. -/
def waypoints (place : List String) : List String → List (List String)
  | [] => []
  | part :: parts => next place part :: waypoints (next place part) parts

end PageForms.Path
