import PageForms.Proofs.Datum.Layout

/-!
# The parts of a line

A value that is written comes to brackets, commas, keys and atoms. A key is one part, however much
stands in it, since it is never broken. What stands between two parts of a line is blank.

Written on one line, a value consists of its parts, and if no atom has a line break in it, no part
has.
-/

namespace PageForms

/-- A part of a line. -/
inductive LinePart where
  | blanks (count : Nat)
  | opener (text : String)
  | closer (text : String)
  | comma
  | key (text : String)
  | atom (text : String)
deriving DecidableEq, Repr

namespace LinePart

def text : LinePart → String
  | .blanks count => Text.spaces count
  | .opener text | .closer text | .key text | .atom text => text
  | .comma => ","

def isBlank : LinePart → Bool
  | .blanks _ => true
  | _ => false

def isAtom : LinePart → Bool
  | .atom _ => true
  | _ => false

def isEnd : LinePart → Bool
  | .closer _ | .comma => true
  | _ => false

private theorem isBlank_of_isEnd {p : LinePart} (h : p.isEnd = true) : p.isBlank = false := by
  cases p with
  | closer | comma => rfl
  | _ => cases h

end LinePart

def lineText (ps : List LinePart) : String :=
  Text.concat (ps.map LinePart.text)

def solid (ps : List LinePart) : List LinePart :=
  ps.filter fun p => !p.isBlank

@[simp] theorem lineText_nil : lineText [] = "" := rfl

@[simp] theorem lineText_cons (p : LinePart) (ps : List LinePart) :
    lineText (p :: ps) = p.text ++ lineText ps := rfl

@[simp] theorem lineText_singleton (p : LinePart) : lineText [p] = p.text :=
  String.append_empty

@[simp] theorem lineText_append (ps qs : List LinePart) :
    lineText (ps ++ qs) = lineText ps ++ lineText qs := by
  induction ps with
  | nil => simp
  | cons p ps ih => rw [List.cons_append, lineText_cons, ih, lineText_cons, String.append_assoc]

@[simp] theorem solid_append (ps qs : List LinePart) : solid (ps ++ qs) = solid ps ++ solid qs :=
  List.filter_append ..

theorem solid_end {p : LinePart} (h : p.isEnd = true) : solid [p] = [p] := by
  simp [solid, LinePart.isBlank_of_isEnd h]

/-! ## The parts of a value -/

namespace Datum

mutual

def lineParts : Datum → List LinePart
  | .seq shape xs => .opener shape.opener :: (itemParts xs ++ [.closer shape.closer])
  | .map [] => [.opener "\x7b", .closer "\x7d"]
  | .map ((k, v) :: es) =>
    .opener "\x7b" :: .key k.write :: (lineParts v ++ (entryParts es ++ [.closer "\x7d"]))
  | v => [.atom v.write]

def itemParts : List Datum → List LinePart
  | [] => []
  | x :: xs => lineParts x ++ itemParts xs

def entryParts : List (Datum × Datum) → List LinePart
  | [] => []
  | (k, v) :: es => .comma :: .key k.write :: (lineParts v ++ entryParts es)

end

private theorem itemParts_eq_flatMap (xs : List Datum) : itemParts xs = xs.flatMap lineParts := by
  induction xs with
  | nil => rfl
  | cons x xs ih => rw [itemParts, ih, List.flatMap_cons]

private theorem entryParts_eq_flatMap (es : Entries) :
    entryParts es = es.flatMap fun e => [.comma] ++ (.key e.1.write :: e.2.lineParts) := by
  induction es with
  | nil => rfl
  | cons e es ih =>
      rw [entryParts, ih, List.flatMap_cons]
      rfl

theorem lineParts_of_atom {v : Datum} (h : v.isCollection = false) :
    v.lineParts = [.atom v.write] := by
  cases v with
  | seq => cases h
  | map => cases h
  | _ => simp [lineParts]

end Datum

/-! ## Writing on one line -/

/-- The text consists of these parts, and blanks between them. -/
def OneLine (text : String) (qs : List LinePart) : Prop :=
  ∃ ps, text = lineText ps ∧ solid ps = qs

namespace OneLine

variable {s t : String} {qs rs : List LinePart}

theorem append (h : OneLine s qs) (h' : OneLine t rs) : OneLine (s ++ t) (qs ++ rs) := by
  obtain ⟨ps, rfl, rfl⟩ := h
  obtain ⟨ps', rfl, rfl⟩ := h'
  exact ⟨ps ++ ps', by simp, by simp⟩

private theorem of_solid (p : LinePart) (h : p.isBlank = false) : OneLine p.text [p] :=
  ⟨[p], by simp, by simp [solid, h]⟩

theorem space : OneLine " " [] := ⟨[.blanks 1], rfl, rfl⟩

theorem joinWith {α : Type} {gap : String} {gs : List LinePart} (hgap : OneLine gap gs)
    {text : α → String} {parts : α → List LinePart} {x : α} {xs : List α}
    (h : ∀ y ∈ x :: xs, OneLine (text y) (parts y)) :
    OneLine (Text.joinWith gap ((x :: xs).map text))
      (parts x ++ xs.flatMap fun y => gs ++ parts y) := by
  induction xs generalizing x with
  | nil =>
      rw [List.flatMap_nil, List.append_nil]
      exact h x (by simp)
  | cons y xs ih =>
      have hx := h x (by simp)
      have hxs : ∀ z ∈ y :: xs, OneLine (text z) (parts z) := fun z hz => h z (.tail x hz)
      rw [List.map_cons, Datum.joinWith_cons _ _ (by simp), List.flatMap_cons, List.append_assoc,
        ← List.append_assoc]
      exact (hx.append hgap).append (ih hxs)

end OneLine

namespace Datum

theorem oneLine_atom {v : Datum} (h : v.isCollection = false) : OneLine v.write v.lineParts := by
  rw [lineParts_of_atom h]
  exact .of_solid (.atom _) rfl

theorem oneLine_seq {xs : List Datum} (h : ∀ x ∈ xs, OneLine x.write x.lineParts) (shape : Shape) :
    OneLine (seq shape xs).write (seq shape xs).lineParts := by
  have hopen : OneLine shape.opener [.opener shape.opener] := .of_solid (.opener _) rfl
  have hclose : OneLine shape.closer [.closer shape.closer] := .of_solid (.closer _) rfl
  rw [write, writeItems_eq_map, lineParts, itemParts_eq_flatMap]
  cases xs with
  | nil => exact (hopen.append ⟨[], rfl, rfl⟩).append hclose
  | cons x xs => exact (hopen.append (OneLine.space.joinWith h)).append hclose

private theorem oneLine_entry (k : Datum) {v : Datum} (h : OneLine v.write v.lineParts) :
    OneLine (k.write ++ " " ++ v.write) (.key k.write :: v.lineParts) := by
  have hkey : OneLine k.write [.key k.write] := .of_solid (.key _) rfl
  exact (hkey.append .space).append h

theorem oneLine_map {es : Entries} (h : ∀ e ∈ es, OneLine e.2.write e.2.lineParts) :
    OneLine (map es).write (map es).lineParts := by
  have hopen : OneLine "\x7b" [.opener "\x7b"] := .of_solid (.opener _) rfl
  have hclose : OneLine "\x7d" [.closer "\x7d"] := .of_solid (.closer _) rfl
  have hcomma : OneLine "," [.comma] := .of_solid .comma rfl
  rw [write, writeEntries_eq_map]
  cases es with
  | nil => exact (hopen.append ⟨[], rfl, rfl⟩).append hclose
  | cons e es =>
      have hentries := (hcomma.append .space).joinWith fun f hf => oneLine_entry f.1 (h f hf)
      have hall := (hopen.append hentries).append hclose
      rw [lineParts, entryParts_eq_flatMap]
      simpa using hall

theorem WellFormed.oneLine_write {p : Datum → Prop} {v : Datum} (h : WellFormed p v) :
    OneLine v.write v.lineParts := by
  induction h with
  | atom hv _ => exact oneLine_atom hv
  | seq _ _ ih => exact oneLine_seq ih _
  | map _ _ _ _ ih => exact oneLine_map ih

end Datum

/-! ## Line breaks -/

def LinePart.Unbroken (p : LinePart) : Prop :=
  '\n' ∉ p.text.toList

private theorem unbroken_blanks (count : Nat) : (LinePart.blanks count).Unbroken := by
  simp [LinePart.Unbroken, LinePart.text, Text.spaces]

private theorem unbroken_opener (shape : Shape) : (LinePart.opener shape.opener).Unbroken := by
  cases shape <;> simp [LinePart.Unbroken, LinePart.text, Shape.opener]

private theorem unbroken_closer (shape : Shape) : (LinePart.closer shape.closer).Unbroken := by
  cases shape <;> simp [LinePart.Unbroken, LinePart.text, Shape.closer]

theorem unbroken_of_solid {ps : List LinePart} (h : ∀ p ∈ solid ps, p.Unbroken) :
    ∀ p ∈ ps, p.Unbroken := by
  intro p hp
  cases hblank : p.isBlank with
  | true =>
      cases p with
      | blanks count => exact unbroken_blanks count
      | _ => cases hblank
  | false => exact h p (List.mem_filter.2 ⟨hp, by simp [hblank]⟩)

theorem lineText_unbroken {ps : List LinePart} (h : ∀ p ∈ ps, p.Unbroken) :
    '\n' ∉ (lineText ps).toList := by
  induction ps with
  | nil => simp
  | cons p ps ih =>
      rw [lineText_cons, String.toList_append, List.mem_append, not_or]
      exact ⟨h p (by simp), ih fun q hq => h q (by simp [hq])⟩

theorem OneLine.unbroken {text : String} {qs : List LinePart} (h : OneLine text qs)
    (hqs : ∀ q ∈ qs, q.Unbroken) : '\n' ∉ text.toList := by
  obtain ⟨ps, rfl, rfl⟩ := h
  exact lineText_unbroken (unbroken_of_solid hqs)

namespace Datum

theorem unbroken_seq {xs : List Datum} (h : ∀ x ∈ xs, ∀ p ∈ x.lineParts, p.Unbroken)
    (shape : Shape) : ∀ p ∈ (seq shape xs).lineParts, p.Unbroken := by
  intro p hp
  rw [lineParts, itemParts_eq_flatMap] at hp
  simp only [List.mem_cons, List.mem_append, List.mem_flatMap, List.not_mem_nil, or_false] at hp
  rcases hp with rfl | ⟨x, hx, hp⟩ | rfl
  · exact unbroken_opener shape
  · exact h x hx p hp
  · exact unbroken_closer shape

private theorem mem_lineParts_map {es : Entries} {p : LinePart} (h : p ∈ (map es).lineParts) :
    p ∈ [.opener "\x7b", .comma, .closer "\x7d"] ∨
      ∃ e ∈ es, p = .key e.1.write ∨ p ∈ e.2.lineParts := by
  cases es with
  | nil =>
      simp only [lineParts, List.mem_cons, List.not_mem_nil, or_false] at h
      rcases h with rfl | rfl <;> simp
  | cons e es =>
      rw [lineParts, entryParts_eq_flatMap] at h
      simp only [List.mem_cons, List.mem_append, List.mem_flatMap, List.not_mem_nil, or_false] at h
      rcases h with rfl | rfl | h | ⟨f, hf, rfl | rfl | h⟩ | rfl
      · simp
      · exact .inr ⟨e, by simp, .inl rfl⟩
      · exact .inr ⟨e, by simp, .inr h⟩
      · simp
      · exact .inr ⟨f, by simp [hf], .inl rfl⟩
      · exact .inr ⟨f, by simp [hf], .inr h⟩
      · simp

private theorem unbroken_map {es : Entries} (hkeys : ∀ e ∈ es, '\n' ∉ e.1.write.toList)
    (hvalues : ∀ e ∈ es, ∀ p ∈ e.2.lineParts, p.Unbroken) :
    ∀ p ∈ (map es).lineParts, p.Unbroken := by
  intro p hp
  rcases mem_lineParts_map hp with hmark | ⟨e, he, rfl | hp⟩
  · simp only [List.mem_cons, List.not_mem_nil, or_false] at hmark
    rcases hmark with rfl | rfl | rfl <;> simp [LinePart.Unbroken, LinePart.text]
  · exact hkeys e he
  · exact hvalues e he p hp

/-- If no atom of a value has a line break in it, none of its parts has. -/
theorem WellFormed.unbroken {v : Datum} (h : WellFormed (fun a => '\n' ∉ a.write.toList) v) :
    ∀ p ∈ v.lineParts, p.Unbroken := by
  induction h with
  | atom hv hp =>
      rw [lineParts_of_atom hv, List.forall_mem_singleton]
      exact hp
  | seq _ _ ih => exact unbroken_seq ih _
  | map hkeys _ _ ihkeys ihvalues =>
      apply unbroken_map _ ihvalues
      intro e he
      exact (hkeys e he).oneLine_write.unbroken (ihkeys e he)

mutual

def literalsUnbroken : Datum → Bool
  | .literal text => !text.toList.contains '\n'
  | .seq _ xs => allLiteralsUnbroken xs
  | .map es => entryLiteralsUnbroken es
  | _ => true

def allLiteralsUnbroken : List Datum → Bool
  | [] => true
  | x :: xs => literalsUnbroken x && allLiteralsUnbroken xs

def entryLiteralsUnbroken : List (Datum × Datum) → Bool
  | [] => true
  | (k, v) :: es => literalsUnbroken k && literalsUnbroken v && entryLiteralsUnbroken es

end

theorem allLiteralsUnbroken_eq_all (xs : List Datum) :
    allLiteralsUnbroken xs = xs.all literalsUnbroken := by
  induction xs with
  | nil => rfl
  | cons x xs ih => rw [allLiteralsUnbroken, ih, List.all_cons]

private theorem entryLiteralsUnbroken_eq_all (es : Entries) :
    entryLiteralsUnbroken es = es.all fun e => e.1.literalsUnbroken && e.2.literalsUnbroken := by
  induction es with
  | nil => rfl
  | cons e es ih => rw [entryLiteralsUnbroken, ih, List.all_cons]

theorem WellFormed.and_literalsUnbroken {p : Datum → Prop} {v : Datum} (h : WellFormed p v)
    (hv : v.literalsUnbroken = true) :
    WellFormed (fun a => p a ∧ a.literalsUnbroken = true) v := by
  induction h with
  | atom hatom hp => exact .atom hatom ⟨hp, hv⟩
  | seq hshape _ ih =>
      rw [literalsUnbroken, allLiteralsUnbroken_eq_all, List.all_eq_true] at hv
      exact .seq hshape fun x hx => ih x hx (hv x hx)
  | map _ _ hes ihkeys ihvalues =>
      simp only [literalsUnbroken, entryLiteralsUnbroken_eq_all, List.all_eq_true,
        Bool.and_eq_true] at hv
      exact .map (fun e he => ihkeys e he (hv e he).1) (fun e he => ihvalues e he (hv e he).2) hes

end Datum

end PageForms
