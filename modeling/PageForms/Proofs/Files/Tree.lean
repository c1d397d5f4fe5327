import Mathlib.Data.List.Induction
import PageForms.Files.Tree
import PageForms.Proofs.Files.Path

/-!
# Trees before and after a change

A tree is seen through the content of each place. Storing a content changes one place, and creating
directories changes none. `Extends` says that one tree comes from another by such changes: what was
a directory still is one, so every path that led somewhere leads there still.
-/

namespace PageForms.FileTree

open PageForms.Path (follow waypoints next)

/-! ## Contents -/

private theorem find?_store (place q : Place) (bytes : ByteArray)
    (files : List (Place × ByteArray)) :
    (store place bytes files).find? (fun f => f.1 == q) =
      if q = place then some (place, bytes) else files.find? fun f => f.1 == q := by
  induction files with
  | nil =>
      by_cases h : q = place
      · simp [store, h]
      · simp [store, h, Ne.symm h]
  | cons f files ih =>
      rw [store]
      by_cases hf : f.1 = place
      · rw [if_pos hf]
        by_cases h : q = place
        · simp [h]
        · simp [hf, h, Ne.symm h]
      · rw [if_neg hf, List.find?_cons, List.find?_cons, ih]
        by_cases h : q = place
        · rw [h, beq_false_of_ne hf]
        · rw [if_neg h, if_neg h]

/-- Storing a content changes one place. -/
theorem contentAt?_storeAt (t : FileTree) (place q : Place) (bytes : ByteArray) :
    (t.storeAt place bytes).contentAt? q = if q = place then some bytes else t.contentAt? q := by
  rw [contentAt?, storeAt, find?_store]
  split <;> rfl

private theorem contentAt?_of_mem {t : FileTree} {f : Place × ByteArray} (h : f ∈ t.files) :
    t.isFileAt f.1 = true := by
  rw [isFileAt, contentAt?, Option.isSome_map, List.find?_isSome]
  exact ⟨f, h, by simp⟩

private theorem exists_mem_of_isFileAt {t : FileTree} {place : Place}
    (h : t.isFileAt place = true) :
    ∃ f ∈ t.files, f.1 = place := by
  rw [isFileAt, contentAt?, Option.isSome_map, List.find?_isSome] at h
  simpa using h

/-! ## Trees that hold together -/

/-- The working directory exists, and no place is both a file and a directory. -/
structure Consistent (t : FileTree) : Prop where
  cwd : t.isDirectoryAt t.cwd = true
  apart : ∀ place, t.isFileAt place = true → t.isDirectoryAt place = false

/-- The entries make up a tree: what lies in a directory lies in one that exists, and files have
proper names. -/
structure IsTree (t : FileTree) : Prop where
  cwd : t.isDirectoryAt t.cwd = true
  apart : ∀ f ∈ t.files, t.isDirectoryAt f.1 = false
  aboveFile : ∀ f ∈ t.files, t.isDirectoryAt f.1.dropLast = true
  above : ∀ d ∈ t.directories, t.isDirectoryAt d.dropLast = true
  names : ∀ f ∈ t.files, f.1.all Path.isName = true

theorem IsTree.consistent {t : FileTree} (h : t.IsTree) : t.Consistent := by
  refine ⟨h.cwd, ?_⟩
  intro place hfile
  obtain ⟨f, hf, rfl⟩ := exists_mem_of_isFileAt hfile
  exact h.apart f hf

/-- Every place above a directory is one. -/
theorem IsTree.isDirectoryAt_of_append {t : FileTree} (h : t.IsTree) {place : Place}
    (more : List String) (hdir : t.isDirectoryAt (place ++ more) = true) :
    t.isDirectoryAt place = true := by
  induction more using List.reverseRecOn with
  | nil => rwa [List.append_nil] at hdir
  | append_singleton more name ih =>
      apply ih
      rw [← List.append_assoc] at hdir
      have hne : (place ++ more ++ [name]).isEmpty = false := by simp
      rw [isDirectoryAt, hne, Bool.false_or, List.contains_iff_mem] at hdir
      have habove := h.above _ hdir
      rwa [List.dropLast_concat] at habove

private theorem IsTree.isDirectoryAt_dropLast {t : FileTree} (h : t.IsTree) {place : Place}
    (hdir : t.isDirectoryAt place = true) : t.isDirectoryAt place.dropLast = true := by
  rw [isDirectoryAt, Bool.or_eq_true, List.contains_iff_mem] at hdir
  rcases hdir with hempty | hmem
  · rw [List.isEmpty_iff.1 hempty]
    rfl
  · exact h.above place hmem

theorem isDirectoryAt_start {t : FileTree} (ht : t.Consistent) (p : Path) :
    t.isDirectoryAt (if p.absolute then [] else t.cwd) = true := by
  split
  · rfl
  · exact ht.cwd

/-! ## Growing -/

/-- The second tree has the working directory and all directories of the first. -/
structure Extends (t t' : FileTree) : Prop where
  cwd : t'.cwd = t.cwd
  directories : ∀ d, t.isDirectoryAt d = true → t'.isDirectoryAt d = true

namespace Extends

variable {t t₁ t₂ : FileTree}

theorem refl (t : FileTree) : t.Extends t := ⟨rfl, fun _ h => h⟩

theorem trans (h₁ : t.Extends t₁) (h₂ : t₁.Extends t₂) : t.Extends t₂ :=
  ⟨h₂.cwd.trans h₁.cwd, fun d h => h₂.directories d (h₁.directories d h)⟩

theorem storeAt (t : FileTree) (place : Place) (bytes : ByteArray) :
    t.Extends (t.storeAt place bytes) := ⟨rfl, fun _ h => h⟩

end Extends

/-! ## Following paths -/

theorem walk_cons (t : FileTree) (place : Place) (part : String) (parts : List String) :
    t.walk place (part :: parts) =
      if t.isDirectoryAt place then t.walk (next place part) parts
      else if t.isFileAt place then .error .notDirectory else .error .fileNotFound := by
  rw [walk]
  rfl

private theorem walk_eq_ok {t : FileTree} {place q : Place} {parts : List String}
    (h : t.walk place parts = .ok q) : q = follow place parts := by
  induction parts generalizing place with
  | nil =>
      cases h
      rfl
  | cons part parts ih =>
      rw [walk_cons] at h
      split at h
      · exact ih h
      · split at h <;> cases h

theorem Extends.walk {t t' : FileTree} (he : t.Extends t') {place q : Place} {parts : List String}
    (h : t.walk place parts = .ok q) : t'.walk place parts = .ok q := by
  induction parts generalizing place with
  | nil => exact h
  | cons part parts ih =>
      rw [walk_cons] at h ⊢
      split at h
      · next hdir =>
        rw [if_pos (he.directories place hdir)]
        exact ih h
      · split at h <;> cases h

/-- A path leads somewhere if it passes through directories only. -/
theorem walk_append_of_waypoints {t : FileTree} {place : Place} {parts : List String}
    (hplace : t.isDirectoryAt place = true)
    (hway : ∀ d ∈ waypoints place parts, t.isDirectoryAt d = true) (name : String) :
    t.walk place (parts ++ [name]) = .ok (next (follow place parts) name) := by
  induction parts generalizing place with
  | nil =>
      rw [List.nil_append, walk_cons, if_pos hplace]
      rfl
  | cons part parts ih =>
      rw [List.cons_append, walk_cons, if_pos hplace]
      exact ih (hway _ (by simp [waypoints])) fun d hd => hway d (by simp [waypoints, hd])

theorem locate_eq_ok {t : FileTree} {p : Path} {q : Place} (h : t.locate p = .ok q) :
    q = p.resolve t.cwd ∧ p.hasNull = false := by
  unfold locate at h
  split at h
  · cases h
  · next hnull => exact ⟨walk_eq_ok h, by simpa using hnull⟩

theorem Extends.locate {t t' : FileTree} (he : t.Extends t') {p : Path} {q : Place}
    (h : t.locate p = .ok q) : t'.locate p = .ok q := by
  unfold FileTree.locate at h ⊢
  split at h
  · cases h
  · next hnull =>
    rw [if_neg hnull, he.cwd]
    exact he.walk h

private theorem locate_error {t : FileTree} {p : Path} {e : Fault} (h : t.locate p = .error e) :
    e = .nullInPath ∨ e.isFileAccess = true := by
  have hwalk : ∀ parts place, t.walk place parts = .error e → e.isFileAccess = true := by
    intro parts
    induction parts with
    | nil =>
        intro place h
        cases h
    | cons part parts ih =>
        intro place h
        rw [walk_cons] at h
        split at h
        · exact ih _ h
        · split at h <;> cases h <;> rfl
  unfold locate at h
  split at h
  · cases h
    exact .inl rfl
  · exact .inr (hwalk _ _ h)

/-! ## Reading -/

private theorem read_of_locate {t : FileTree} {p : Path} {place : Place}
    (h : t.locate p = .ok place) :
    t.read p = if t.isDirectoryAt place then .error .isDirectory
      else (t.contentAt? place).elim (.error .fileNotFound) .ok := by
  rw [read, h, ok_bind]
  cases t.isDirectoryAt place <;> cases t.contentAt? place <;> rfl

theorem read_of_contentAt? {t : FileTree} {p : Path} {place : Place} {bytes : ByteArray}
    (hlocate : t.locate p = .ok place) (hdir : t.isDirectoryAt place = false)
    (hcontent : t.contentAt? place = some bytes) : t.read p = .ok bytes := by
  rw [read_of_locate hlocate, hdir, hcontent]
  rfl

theorem read_eq_ok_iff {t : FileTree} (ht : t.Consistent) {p : Path} {bytes : ByteArray} :
    t.read p = .ok bytes ↔
      t.locate p = .ok (p.resolve t.cwd) ∧ t.contentAt? (p.resolve t.cwd) = some bytes := by
  constructor
  · intro h
    cases hlocate : t.locate p with
    | error e =>
        rw [read, hlocate] at h
        cases h
    | ok place =>
        rw [read_of_locate hlocate] at h
        obtain ⟨rfl, -⟩ := locate_eq_ok hlocate
        refine ⟨rfl, ?_⟩
        split at h
        · cases h
        · cases hcontent : t.contentAt? (p.resolve t.cwd) <;> rw [hcontent] at h <;> cases h
          rfl
  · rintro ⟨hlocate, hcontent⟩
    have hdir := ht.apart (p.resolve t.cwd) (by rw [isFileAt, hcontent]; rfl)
    exact read_of_contentAt? hlocate hdir hcontent

theorem read_error {t : FileTree} {p : Path} {e : Fault} (h : t.read p = .error e) :
    e = .nullInPath ∨ e.isFileAccess = true := by
  cases hlocate : t.locate p with
  | error e' =>
      rw [read, hlocate] at h
      cases h
      exact locate_error hlocate
  | ok place =>
      rw [read_of_locate hlocate] at h
      split at h
      · cases h
        exact .inr rfl
      · cases hcontent : t.contentAt? place <;> rw [hcontent] at h <;> cases h
        exact .inr rfl

/-- What was read before is read again if the content of its place is the same. -/
theorem Extends.read {t t' : FileTree} (he : t.Extends t') (ht : t.Consistent)
    (ht' : t'.Consistent) {p : Path} {bytes : ByteArray} (h : t.read p = .ok bytes)
    (hsame : t'.contentAt? (p.resolve t.cwd) = t.contentAt? (p.resolve t.cwd)) :
    t'.read p = .ok bytes := by
  obtain ⟨hlocate, hcontent⟩ := (read_eq_ok_iff ht).1 h
  rw [read_eq_ok_iff ht', he.cwd, hsame]
  exact ⟨he.locate hlocate, hcontent⟩

/-! ## Writing -/

theorem write_of_locate {t : FileTree} {p : Path} {place : Place} (h : t.locate p = .ok place)
    (bytes : ByteArray) : t.write p bytes =
      if t.isDirectoryAt place then .error .isDirectory else .ok (t.storeAt place bytes) := by
  rw [write, h, ok_bind]
  split <;> rfl

theorem Consistent.storeAt {t : FileTree} (ht : t.Consistent) {place : Place}
    (hplace : t.isDirectoryAt place = false) (bytes : ByteArray) :
    (t.storeAt place bytes).Consistent := by
  refine ⟨ht.cwd, ?_⟩
  intro q hfile
  rw [isFileAt, contentAt?_storeAt] at hfile
  by_cases hq : q = place
  · rw [hq]
    exact hplace
  · rw [if_neg hq] at hfile
    exact ht.apart q hfile

/-! ## Creating directories -/

private theorem createFrom_cons (t : FileTree) (created : Bool) (place : Place) (part : String)
    (parts : List String) :
    t.createFrom created place (part :: parts) =
      if t.isDirectoryAt (next place part) then t.createFrom created (next place part) parts
      else if t.isFileAt (next place part) then
        (t, .error (if created || parts.isEmpty then .fileExists else .notDirectory))
      else
        FileTree.createFrom { t with directories := t.directories ++ [next place part] } true
          (next place part) parts := by
  rw [createFrom]
  rfl

def addPlace (t : FileTree) (d : Place) : FileTree :=
  { t with directories := t.directories ++ [d] }

private theorem isDirectoryAt_addPlace (t : FileTree) (d q : Place) :
    (t.addPlace d).isDirectoryAt q = (t.isDirectoryAt q || q == d) := by
  rw [Bool.eq_iff_iff]
  simp [isDirectoryAt, addPlace, or_assoc]

private theorem extends_addPlace (t : FileTree) (d : Place) : t.Extends (t.addPlace d) := by
  refine ⟨rfl, ?_⟩
  intro q hq
  rw [isDirectoryAt_addPlace, hq, Bool.true_or]

theorem Consistent.addPlace {t : FileTree} (ht : t.Consistent) {d : Place}
    (hd : t.isFileAt d = false) : (t.addPlace d).Consistent := by
  refine ⟨(extends_addPlace t d).directories _ ht.cwd, ?_⟩
  intro q hfile
  have hne : q ≠ d := by
    rintro rfl
    rw [show (t.addPlace q).isFileAt q = t.isFileAt q from rfl, hd] at hfile
    cases hfile
  rw [isDirectoryAt_addPlace, ht.apart q hfile, Bool.false_or]
  simpa using hne

/-- What creating directories leaves of a tree. -/
structure Created (t t' : FileTree) (way : List Place) : Prop extends t.Extends t' where
  files : t'.files = t.files
  consistent : t'.Consistent
  /-- The new directories lie on the way. -/
  fresh : ∀ d, t'.isDirectoryAt d = true → t.isDirectoryAt d = true ∨ d ∈ way

theorem createFrom_created {t : FileTree} (ht : t.Consistent) (created : Bool) (place : Place)
    (parts : List String) :
    Created t (t.createFrom created place parts).1 (waypoints place parts) := by
  induction parts generalizing t created place with
  | nil => exact ⟨.refl t, rfl, ht, fun d hd => .inl hd⟩
  | cons part parts ih =>
      rw [createFrom_cons]
      split
      · have h := ih ht created (next place part)
        exact { h with fresh := fun d hd => (h.fresh d hd).imp_right (List.mem_cons_of_mem _) }
      · split
        · exact ⟨.refl t, rfl, ht, fun d hd => .inl hd⟩
        · next hfile =>
          have h := ih (ht.addPlace (by simpa using hfile)) true (next place part)
          refine ⟨(extends_addPlace t _).trans h.toExtends, h.files, h.consistent, ?_⟩
          intro d hd
          rcases h.fresh d hd with hd | hd
          · rw [isDirectoryAt_addPlace, Bool.or_eq_true, beq_iff_eq] at hd
            rcases hd with hd | rfl
            · exact .inl hd
            · exact .inr (List.mem_cons_self ..)
          · exact .inr (List.mem_cons_of_mem _ hd)

/-- Directories can be created exactly if no file is in the way, and then all places on the way are
directories. -/
theorem createFrom_ok_iff {t : FileTree} (ht : t.Consistent) (created : Bool) (place : Place)
    (parts : List String) :
    ((∃ q, (t.createFrom created place parts).2 = .ok q) ↔
      ∀ d ∈ waypoints place parts, t.isFileAt d = false) ∧
    (∀ q, (t.createFrom created place parts).2 = .ok q →
      ∀ d ∈ waypoints place parts, (t.createFrom created place parts).1.isDirectoryAt d = true) ∧
    ∀ e, (t.createFrom created place parts).2 = .error e → e.isFileAccess = true := by
  induction parts generalizing t created place with
  | nil =>
      refine ⟨⟨fun _ => by simp [waypoints], fun _ => ⟨place, rfl⟩⟩, by simp [waypoints], ?_⟩
      intro e h
      cases h
  | cons part parts ih =>
      have hcons : ∀ p : Place → Prop, (∀ d ∈ waypoints place (part :: parts), p d) ↔
          p (next place part) ∧ ∀ d ∈ waypoints (next place part) parts, p d := by
        intro p
        rw [waypoints, List.forall_mem_cons]
      simp only [hcons]
      rw [createFrom_cons]
      split
      · next hdir =>
        have hfile : t.isFileAt (next place part) = false := by
          rw [← Bool.not_eq_true]
          intro hfile
          rw [ht.apart _ hfile] at hdir
          cases hdir
        have hgrown := (createFrom_created ht created (next place part) parts).directories
        obtain ⟨hok, hway, herror⟩ := ih ht created (next place part)
        exact ⟨hok.trans (by simp [hfile]), fun q hq => ⟨hgrown _ hdir, hway q hq⟩, herror⟩
      · split
        · next hfile =>
          refine ⟨⟨?_, ?_⟩, ?_, ?_⟩
          · rintro ⟨q, h⟩
            cases h
          · rintro ⟨hnot, -⟩
            rw [hfile] at hnot
            cases hnot
          · intro q h
            cases h
          · intro e h
            cases h
            split <;> rfl
        · next hfile =>
          rw [Bool.not_eq_true] at hfile
          have ht' := ht.addPlace hfile
          have hgrown := (createFrom_created ht' true (next place part) parts).directories
          obtain ⟨hok, hway, herror⟩ := ih ht' true (next place part)
          have hnew : (t.addPlace (next place part)).isDirectoryAt (next place part) = true := by
            simp [isDirectoryAt_addPlace]
          exact ⟨hok.trans (by simp [hfile]; rfl), fun q hq => ⟨hgrown _ hnew, hway q hq⟩, herror⟩

/-! ## Files of a tree -/

theorem walk_append (t : FileTree) (place : Place) (parts more : List String) :
    t.walk place (parts ++ more) = (t.walk place parts >>= fun q => t.walk q more) := by
  induction parts generalizing place with
  | nil => rfl
  | cons part parts ih =>
      rw [List.cons_append, walk_cons, walk_cons]
      split
      · exact ih _
      · split <;> rfl

private theorem locate_append {names : List String} (h : names.all Path.isName = true)
    (t : FileTree) (p : Path) : t.locate { p with parts := p.parts ++ names } =
      (t.locate p >>= fun q => t.walk q names) := by
  rw [locate, locate, Path.hasNull_append h]
  split
  · rfl
  · exact walk_append ..

/-- From a directory the names of a file below it lead to the file. -/
theorem IsTree.walk_below {t : FileTree} (ht : t.IsTree) {place : Place} {rest : List String}
    (hnames : rest.all Path.isName = true)
    (hfile : rest ≠ [] → t.isDirectoryAt (place ++ rest).dropLast = true) :
    t.walk place rest = .ok (place ++ rest) := by
  induction rest generalizing place with
  | nil => rw [List.append_nil]; rfl
  | cons name rest ih =>
      rw [List.all_cons, Bool.and_eq_true] at hnames
      have habove := hfile (List.cons_ne_nil _ _)
      have hdir : t.isDirectoryAt place = true := by
        rw [List.dropLast_append_of_ne_nil (List.cons_ne_nil _ _)] at habove
        exact ht.isDirectoryAt_of_append _ habove
      have hplace : place ++ name :: rest = (place ++ [name]) ++ rest := by simp
      rw [hplace] at habove ⊢
      rw [walk_cons, if_pos hdir, next, if_neg (Path.ne_up_of_isName hnames.1)]
      exact ih hnames.2 fun _ => habove

theorem isDirectory_eq_true {t : FileTree} {p : Path} (h : t.isDirectory p = true) :
    t.locate p = .ok (p.resolve t.cwd) ∧ t.isDirectoryAt (p.resolve t.cwd) = true := by
  unfold isDirectory at h
  split at h
  · next place hlocate =>
    obtain ⟨rfl, -⟩ := locate_eq_ok hlocate
    exact ⟨hlocate, h⟩
  · cases h

theorem isFile_eq_true {t : FileTree} {p : Path} (h : t.isFile p = true) :
    t.locate p = .ok (p.resolve t.cwd) ∧ t.isFileAt (p.resolve t.cwd) = true := by
  unfold isFile at h
  split at h
  · next place hlocate =>
    obtain ⟨rfl, -⟩ := locate_eq_ok hlocate
    exact ⟨hlocate, h⟩
  · cases h

/-- A file below a directory can be read, and its path is longer by proper names. -/
theorem IsTree.exists_of_mem_filesBelow {t : FileTree} (ht : t.IsTree) {p source : Path}
    (hp : t.isDirectory p = true) (h : source ∈ t.filesBelow p) :
    (∃ bytes, t.read source = .ok bytes) ∧
      ∃ rest, rest ≠ [] ∧ rest.all Path.isName = true ∧
        source = { p with parts := p.parts ++ rest } := by
  obtain ⟨hlocate, hdir⟩ := isDirectory_eq_true hp
  unfold filesBelow at h
  simp only [hlocate, List.mem_filterMap, Option.ite_none_right_eq_some, Option.some.injEq,
    List.isPrefixOf_iff_prefix] at h
  obtain ⟨f, hf, ⟨rest, hrest⟩, rfl⟩ := h
  have hnames : rest.all Path.isName = true := by
    have hall := ht.names f hf
    rw [← hrest, List.all_append, Bool.and_eq_true] at hall
    exact hall.2
  have hne : rest ≠ [] := by
    rintro rfl
    rw [List.append_nil] at hrest
    rw [hrest, ht.apart f hf] at hdir
    cases hdir
  rw [← hrest, List.drop_left]
  refine ⟨?_, rest, hne, hnames, rfl⟩
  have hwalk : t.walk (p.resolve t.cwd) rest = .ok (p.resolve t.cwd ++ rest) :=
    ht.walk_below hnames fun _ => hrest ▸ ht.aboveFile f hf
  obtain ⟨bytes, hbytes⟩ := Option.isSome_iff_exists.1 (contentAt?_of_mem hf)
  refine ⟨bytes, (read_eq_ok_iff ht.consistent).2 ?_⟩
  rw [locate_append hnames, hlocate, Path.resolve_append hnames, hrest]
  exact ⟨hrest ▸ hwalk, hbytes⟩

/-- Names that lead from a directory to something else end in one that goes down. -/
theorem IsTree.walk_end {t : FileTree} (ht : t.IsTree) {place q : Place} {parts : List String}
    (hplace : t.isDirectoryAt place = true) (h : t.walk place parts = .ok q)
    (hq : t.isDirectoryAt q = false) :
    ∃ front name above, parts = front ++ [name] ∧ q = above ++ [name] := by
  induction parts generalizing place with
  | nil =>
      cases h
      rw [hplace] at hq
      cases hq
  | cons part parts ih =>
      rw [walk_cons, if_pos hplace] at h
      by_cases hnext : t.isDirectoryAt (next place part) = true
      · obtain ⟨front, name, above, rfl, hend⟩ := ih hnext h
        exact ⟨part :: front, name, above, rfl, hend⟩
      · have hup : part ≠ ".." := by
          rintro rfl
          exact hnext (ht.isDirectoryAt_dropLast hplace)
        cases parts with
        | nil =>
            cases h
            exact ⟨[], part, place, rfl, if_neg hup⟩
        | cons part' parts =>
            rw [walk_cons, if_neg hnext] at h
            split at h <;> cases h

/-- The path of a file can be read and ends in a proper name. -/
theorem IsTree.exists_of_isFile {t : FileTree} (ht : t.IsTree) {p : Path}
    (hp : t.isFile p = true) :
    (∃ bytes, t.read p = .ok bytes) ∧ ∃ front name, p.parts = front ++ [name] ∧
      Path.isName name = true := by
  obtain ⟨hlocate, hfile⟩ := isFile_eq_true hp
  obtain ⟨bytes, hbytes⟩ := Option.isSome_iff_exists.1 hfile
  refine ⟨⟨bytes, (read_eq_ok_iff ht.consistent).2 ⟨hlocate, hbytes⟩⟩, ?_⟩
  obtain ⟨f, hf, hplace⟩ := exists_mem_of_isFileAt hfile
  have hwalk : t.walk (if p.absolute then [] else t.cwd) p.parts = .ok f.1 := by
    rw [locate, if_neg (by simp [(locate_eq_ok hlocate).2])] at hlocate
    rw [hlocate, hplace]
  obtain ⟨front, name, above, hparts, hend⟩ :=
    ht.walk_end (isDirectoryAt_start ht.consistent p) hwalk (ht.apart f hf)
  have hnames := ht.names f hf
  rw [hend, List.all_append, Bool.and_eq_true] at hnames
  exact ⟨front, name, hparts, by simpa using hnames.2⟩

end PageForms.FileTree
