import PageForms.Command.Output
import PageForms.Proofs.Files.Tree

/-!
# What writing results does

The results of a source go to two places in one directory. `Written` lists everything that writing
them can do: both are stored, or only the markup is, or nothing but directories comes of it, where a
text that has no encoding leaves an empty file. Both are stored whole exactly if the directory can
be made, neither place is a directory (`CanHold`) and both texts can be encoded (`Encodable`).
-/

namespace PageForms

open PageForms.Path (follow waypoints isName)

/-! ## Places of results -/

/-- Where results go: the place of their directory, and their name before the endings. -/
structure Target where
  directory : Place
  stem : String
deriving DecidableEq

namespace Target

def markup (x : Target) : Place :=
  x.directory ++ [x.stem ++ ".html"]

def code (x : Target) : Place :=
  x.directory ++ [x.stem ++ ".cljs"]

def Includes (x : Target) (place : Place) : Prop :=
  place = x.markup ∨ place = x.code

private theorem append_inj_right' {a b ending : String} (h : a ++ ending = b ++ ending) :
    a = b := by
  have hchars := congrArg String.toList h
  rw [String.toList_append, String.toList_append] at hchars
  exact String.toList_inj.1 (List.append_cancel_right hchars)

theorem eq_of_append_eq {x y : Target} {ending : String}
    (h : x.directory ++ [x.stem ++ ending] = y.directory ++ [y.stem ++ ending]) : x = y := by
  obtain ⟨hdirectory, hname⟩ := List.append_inj' h rfl
  have hstem := append_inj_right' (List.cons.inj hname).1
  cases x
  cases y
  exact congr (congrArg mk hdirectory) hstem

/-- A page and a module never have one name. -/
theorem markup_ne_code (x y : Target) : x.markup ≠ y.code := by
  intro h
  obtain ⟨-, hname⟩ := List.append_inj' h rfl
  simp only [List.cons.injEq, and_true] at hname
  have hlast := congrArg (fun s : String => s.toList.getLast?) hname
  simp [String.toList_append] at hlast

/-- Two targets that share a place are one. -/
theorem eq_of_includes {x y : Target} {place : Place} (hx : x.Includes place)
    (hy : y.Includes place) : x = y := by
  rcases hx with rfl | rfl
  · rcases hy with h | h
    · exact eq_of_append_eq h
    · exact absurd h (markup_ne_code x y)
  · rcases hy with h | h
    · exact absurd h.symm (markup_ne_code y x)
    · exact eq_of_append_eq h

end Target

def isStem (stem : String) : Bool :=
  !stem.toList.contains '/' && !stem.toList.contains '\x00'

private theorem isName_of_isStem {stem ending : String} (h : isStem stem = true)
    (hending : isName ending = true) (hlong : 2 < ending.length) :
    isName (stem ++ ending) = true := by
  simp only [isStem, Bool.and_eq_true, Bool.not_eq_true', List.contains_eq_mem,
    decide_eq_false_iff_not] at h
  simp only [isName, Bool.and_eq_true, bne_iff_ne, ne_eq, Bool.not_eq_true', List.contains_eq_mem,
    decide_eq_false_iff_not, String.toList_append, List.mem_append, not_or] at hending ⊢
  have hshort : ∀ s : String, s.length ≤ 2 → ¬stem ++ ending = s := by
    intro s hs heq
    have hlength := congrArg String.length heq
    rw [String.length_append] at hlength
    omega
  exact ⟨⟨⟨⟨hshort "" (by decide), hshort "." (by decide)⟩, hshort ".." (by decide)⟩,
    h.1, hending.1.2⟩, h.2, hending.2⟩

private theorem isName_markup {stem : String} (h : isStem stem = true) :
    isName (stem ++ ".html") = true :=
  isName_of_isStem h (by decide) (by decide)

private theorem isName_code {stem : String} (h : isStem stem = true) :
    isName (stem ++ ".cljs") = true :=
  isName_of_isStem h (by decide) (by decide)

private theorem mem_of_mem_splitName {name : String} {c : Char}
    (h : c ∈ (Path.splitName name).1.toList) : c ∈ name.toList := by
  unfold Path.splitName at h
  simp only at h
  split at h
  · next d e front hdrop =>
    split at h
    · exact h
    · rw [String.toList_ofList, List.mem_reverse] at h
      have hmem : c ∈ name.toList.reverse.dropWhile (· != '.') := by
        rw [hdrop]
        exact List.mem_cons_of_mem _ h
      exact List.mem_reverse.1 ((List.dropWhile_sublist _).mem hmem)
  · exact h

theorem isStem_of_isName {p : Path} (h : isName p.name = true) : isStem p.stem = true := by
  simp only [isName, Bool.and_eq_true, Bool.not_eq_true', List.contains_eq_mem,
    decide_eq_false_iff_not] at h
  simp only [isStem, Bool.and_eq_true, Bool.not_eq_true', List.contains_eq_mem,
    decide_eq_false_iff_not]
  exact ⟨fun hc => h.1.2 (mem_of_mem_splitName hc), fun hc => h.2 (mem_of_mem_splitName hc)⟩

def Target.inDirectory (cwd : Place) (directory : Path) (stem : String) : Target :=
  ⟨directory.resolve cwd, stem⟩

def Target.ofSource (cwd : Place) (outDir relative : Path) : Target :=
  .inDirectory cwd (outDir.join relative.parent) relative.stem

namespace OutputFiles

theorem resolve_markup {stem : String} (h : isStem stem = true) (cwd : Place) (directory : Path) :
    (inDirectory directory stem).markup.resolve cwd =
      (Target.inDirectory cwd directory stem).markup :=
  Path.resolve_child (isName_markup h) directory cwd

theorem resolve_code {stem : String} (h : isStem stem = true) (cwd : Place) (directory : Path) :
    (inDirectory directory stem).code.resolve cwd =
      (Target.inDirectory cwd directory stem).code :=
  Path.resolve_child (isName_code h) directory cwd

theorem hasNull_markup {stem : String} (h : isStem stem = true) (directory : Path) :
    (inDirectory directory stem).markup.hasNull = directory.hasNull := by
  rw [inDirectory]
  exact Path.hasNull_child (isName_markup h) directory

theorem hasNull_code {stem : String} (h : isStem stem = true) (directory : Path) :
    (inDirectory directory stem).code.hasNull = directory.hasNull := by
  rw [inDirectory]
  exact Path.hasNull_child (isName_code h) directory

end OutputFiles

/-! ## Creating the directory -/

namespace FileTree

/-- The places on the way to the end of a path. -/
def wayTo (t : FileTree) (p : Path) : List Place :=
  waypoints (if p.absolute then [] else t.cwd) p.parts

theorem createDirectory_created {t : FileTree} (ht : t.Consistent) (p : Path) :
    Created t (t.createDirectory p).1 (t.wayTo p) := by
  unfold createDirectory
  split
  · exact ⟨.refl t, rfl, ht, fun d hd => .inl hd⟩
  · exact createFrom_created ht false _ p.parts

private theorem createDirectory_ok {t : FileTree} (ht : t.Consistent) {p : Path}
    (h : (t.createDirectory p).2 = .ok ()) :
    p.hasNull = false ∧ (∀ d ∈ t.wayTo p, t.isFileAt d = false) ∧
      ∀ d ∈ t.wayTo p, (t.createDirectory p).1.isDirectoryAt d = true := by
  unfold createDirectory at h ⊢
  split at h
  · cases h
  · next hnull =>
    obtain ⟨hok, hway, -⟩ := createFrom_ok_iff ht false (if p.absolute then [] else t.cwd) p.parts
    simp only [Bool.not_eq_true] at hnull
    rw [if_neg (by simp [hnull])]
    cases hresult : (t.createFrom false (if p.absolute then [] else t.cwd) p.parts).2 with
    | error e =>
        simp only [hresult] at h
        cases h
    | ok q => exact ⟨hnull, hok.1 ⟨q, hresult⟩, hway q hresult⟩

private theorem createDirectory_error {t : FileTree} (ht : t.Consistent) {p : Path} {e : Fault}
    (h : (t.createDirectory p).2 = .error e) :
    p.hasNull = true ∨ e.isFileAccess = true ∧ ∃ d ∈ t.wayTo p, t.isFileAt d = true := by
  unfold createDirectory at h
  split at h
  · next hnull => exact .inl hnull
  · obtain ⟨hok, -, herror⟩ := createFrom_ok_iff ht false (if p.absolute then [] else t.cwd) p.parts
    cases hresult : (t.createFrom false (if p.absolute then [] else t.cwd) p.parts).2 with
    | ok q =>
        simp only [hresult] at h
        cases h
    | error e' =>
        simp only [hresult] at h
        cases h
        refine .inr ⟨herror e hresult, ?_⟩
        by_contra hnone
        have hfree : ∀ d ∈ t.wayTo p, t.isFileAt d = false := by simpa using hnone
        obtain ⟨q, hq⟩ := hok.2 hfree
        rw [hq] at hresult
        cases hresult

end FileTree

/-! ## Writing both results -/

/-- Results can be written into a directory under this name. -/
structure CanHold (t : FileTree) (directory : Path) (stem : String) : Prop where
  named : directory.hasNull = false
  /-- No file is in the way of the directory. -/
  way : ∀ d ∈ t.wayTo directory, t.isFileAt d = false
  /-- Neither of the two places is a directory or has to be made one. -/
  free : ∀ place, (Target.inDirectory t.cwd directory stem).Includes place →
    t.isDirectoryAt place = false ∧ place ∉ t.wayTo directory

def Encodable (host : Host) (b : Bundle) : Prop :=
  host.encodes b.markup = true ∧ host.encodes b.code = true

/-- Everything that writing results can do. -/
inductive Written (host : Host) (b : Bundle) (t : FileTree) (directory : Path) (stem : String) :
    FileTree → Except Fault OutputFiles → Prop
  | refused {t₁ : FileTree} {e : Fault} (hcreated : FileTree.Created t t₁ (t.wayTo directory))
      (he : directory.hasNull = true ∨ e.isFileAccess = true)
      (hcannot : ¬CanHold t directory stem) :
      Written host b t directory stem t₁ (.error e)
  | cut {t₁ : FileTree} {e : Fault} (hcreated : FileTree.Created t t₁ (t.wayTo directory))
      (hmarkup : t₁.isDirectoryAt (Target.inDirectory t.cwd directory stem).markup = false)
      (hcut : e = .unencodable ∧ host.encodes b.markup = false ∨
        e.isFileAccess = true ∧ ¬CanHold t directory stem) :
      Written host b t directory stem
        (t₁.storeAt (Target.inDirectory t.cwd directory stem).markup (host.bytes b.markup))
        (.error e)
  | emptied {t₁ : FileTree} (hcreated : FileTree.Created t t₁ (t.wayTo directory))
      (hfree : ∀ place, (Target.inDirectory t.cwd directory stem).Includes place →
        t₁.isDirectoryAt place = false)
      (hcode : host.encodes b.code = false) :
      Written host b t directory stem
        ((t₁.storeAt (Target.inDirectory t.cwd directory stem).markup
          (host.bytes b.markup)).storeAt
            (Target.inDirectory t.cwd directory stem).code (host.bytes b.code))
        (.error .unencodable)
  | whole {t₁ : FileTree} (hcreated : FileTree.Created t t₁ (t.wayTo directory))
      (hmarkup : t₁.locate (OutputFiles.inDirectory directory stem).markup =
        .ok (Target.inDirectory t.cwd directory stem).markup)
      (hcode : t₁.locate (OutputFiles.inDirectory directory stem).code =
        .ok (Target.inDirectory t.cwd directory stem).code)
      (hfree : ∀ place, (Target.inDirectory t.cwd directory stem).Includes place →
        t₁.isDirectoryAt place = false)
      (hcan : CanHold t directory stem) (hencodable : Encodable host b) :
      Written host b t directory stem
        ((t₁.storeAt (Target.inDirectory t.cwd directory stem).markup
          (host.bytes b.markup)).storeAt
            (Target.inDirectory t.cwd directory stem).code (host.bytes b.code))
        (.ok (OutputFiles.inDirectory directory stem))

private theorem locate_child {t : FileTree} (ht : t.Consistent) {p : Path} {name : String}
    (hname : isName name = true) (hnull : p.hasNull = false)
    (hway : ∀ d ∈ t.wayTo p, t.isDirectoryAt d = true) :
    t.locate (p.child name) = .ok (p.resolve t.cwd ++ [name]) := by
  have hwalk := FileTree.walk_append_of_waypoints (FileTree.isDirectoryAt_start ht p) hway name
  rw [FileTree.locate, Path.hasNull_child hname, hnull, Path.child_of_isName hname]
  simp only [Bool.false_eq_true, if_false]
  rw [Path.next, if_neg (Path.ne_up_of_isName hname)] at hwalk
  exact hwalk

/-- A path that leads somewhere can be written to unless a directory is there. -/
theorem writeText_of_locate {t : FileTree} {p : Path} {place : Place}
    (h : t.locate p = .ok place) (host : Host) (text : String) :
    host.writeText t p text =
      if t.isDirectoryAt place then (t, .error .isDirectory)
      else (t.storeAt place (host.bytes text),
        if host.encodes text then .ok () else .error .unencodable) := by
  rw [Host.writeText, FileTree.write_of_locate h]
  cases t.isDirectoryAt place <;> rfl

/-- Where both paths lead somewhere, only a directory in the way keeps a result from being
stored. -/
theorem writeFiles_of_locate {t : FileTree} {files : OutputFiles} {m c : Place}
    (hmarkup : t.locate files.markup = .ok m) (hcode : t.locate files.code = .ok c) (host : Host)
    (b : Bundle) :
    b.writeFiles host files t =
      if t.isDirectoryAt m then (t, .error .isDirectory)
      else if host.encodes b.markup = false then
        (t.storeAt m (host.bytes b.markup), .error .unencodable)
      else if t.isDirectoryAt c then (t.storeAt m (host.bytes b.markup), .error .isDirectory)
      else
        ((t.storeAt m (host.bytes b.markup)).storeAt c (host.bytes b.code),
          if host.encodes b.code then .ok () else .error .unencodable) := by
  have hcode' := (FileTree.Extends.storeAt t m (host.bytes b.markup)).locate hcode
  rw [Bundle.writeFiles, writeText_of_locate hmarkup]
  cases t.isDirectoryAt m with
  | true => rfl
  | false =>
      cases host.encodes b.markup with
      | false => rfl
      | true =>
          simp only [Bool.false_eq_true, Bool.true_eq_false, if_false, if_true]
          rw [writeText_of_locate hcode']
          rfl

theorem write_of_createDirectory {t t₁ : FileTree} {directory : Path}
    (h : t.createDirectory directory = (t₁, .ok ())) (host : Host) (b : Bundle) (stem : String) :
    b.writeOn host directory stem t =
      ((b.writeFiles host (.inDirectory directory stem) t₁).1,
        (b.writeFiles host (.inDirectory directory stem) t₁).2.map fun _ =>
          .inDirectory directory stem) := by
  simp only [Bundle.writeOn, h]
  rcases b.writeFiles host (.inDirectory directory stem) t₁ with ⟨t₂, _ | _⟩ <;> rfl

section Created

variable {t t₁ : FileTree} {directory : Path} {stem : String}

/-- Where both results go somewhere, only a directory in the place of one of them is in the way. -/
theorem write_of_locate (hcreate : t.createDirectory directory = (t₁, .ok ())) {x : Target}
    (hmarkup : t₁.locate (OutputFiles.inDirectory directory stem).markup = .ok x.markup)
    (hcode : t₁.locate (OutputFiles.inDirectory directory stem).code = .ok x.code) (host : Host)
    (b : Bundle) :
    b.writeOn host directory stem t =
      if t₁.isDirectoryAt x.markup then (t₁, .error .isDirectory)
      else if host.encodes b.markup = false then
        (t₁.storeAt x.markup (host.bytes b.markup), .error .unencodable)
      else if t₁.isDirectoryAt x.code then
        (t₁.storeAt x.markup (host.bytes b.markup), .error .isDirectory)
      else
        ((t₁.storeAt x.markup (host.bytes b.markup)).storeAt x.code (host.bytes b.code),
          if host.encodes b.code then .ok (.inDirectory directory stem)
          else .error .unencodable) := by
  rw [write_of_createDirectory hcreate, writeFiles_of_locate hmarkup hcode]
  repeat' split
  all_goals rfl

/-- A directory in the place of a result was there before, or is on the way to the results. -/
theorem not_canHold_of_isDirectoryAt (hcreated : FileTree.Created t t₁ (t.wayTo directory))
    {place : Place} (hplace : (Target.inDirectory t.cwd directory stem).Includes place)
    (hdir : t₁.isDirectoryAt place = true) : ¬CanHold t directory stem := by
  intro hcan
  obtain ⟨hbefore, hnot⟩ := hcan.free place hplace
  rcases hcreated.fresh place hdir with h | h
  · rw [hbefore] at h
    cases h
  · exact hnot h

private theorem canHold_of_created (hcreated : FileTree.Created t t₁ (t.wayTo directory))
    (hnull : directory.hasNull = false) (hway : ∀ d ∈ t.wayTo directory, t.isFileAt d = false)
    (hdirs : ∀ d ∈ t.wayTo directory, t₁.isDirectoryAt d = true)
    (hfree : ∀ place, (Target.inDirectory t.cwd directory stem).Includes place →
      t₁.isDirectoryAt place = false) : CanHold t directory stem := by
  refine ⟨hnull, hway, fun place hplace => ?_⟩
  have hnot := hfree place hplace
  constructor
  · rw [← Bool.not_eq_true]
    intro hbefore
    rw [hcreated.directories place hbefore] at hnot
    cases hnot
  · intro hmem
    rw [hdirs place hmem] at hnot
    cases hnot

private theorem written_of_createDirectory (ht : t.Consistent) (hstem : isStem stem = true)
    (h : t.createDirectory directory = (t₁, .ok ())) (host : Host) (b : Bundle) :
    Written host b t directory stem (b.writeOn host directory stem t).1
      (b.writeOn host directory stem t).2 := by
  have hcreated := FileTree.createDirectory_created ht directory
  have hok := FileTree.createDirectory_ok ht (congrArg Prod.snd h)
  rw [h] at hcreated hok
  obtain ⟨hnull, hway, hdirs⟩ := hok
  have hwayTo : t₁.wayTo directory = t.wayTo directory := by
    rw [FileTree.wayTo, FileTree.wayTo, hcreated.cwd]
  have hmarkup : t₁.locate (OutputFiles.inDirectory directory stem).markup =
      .ok (Target.inDirectory t.cwd directory stem).markup := by
    rw [← hcreated.cwd]
    exact locate_child hcreated.consistent (isName_markup hstem) hnull (by rwa [hwayTo])
  have hcode : t₁.locate (OutputFiles.inDirectory directory stem).code =
      .ok (Target.inDirectory t.cwd directory stem).code := by
    rw [← hcreated.cwd]
    exact locate_child hcreated.consistent (isName_code hstem) hnull (by rwa [hwayTo])
  rw [write_of_locate h hmarkup hcode]
  cases hdirMarkup : t₁.isDirectoryAt (Target.inDirectory t.cwd directory stem).markup with
  | true =>
      exact .refused hcreated (.inr rfl)
        (not_canHold_of_isDirectoryAt hcreated (.inl rfl) hdirMarkup)
  | false =>
      cases hencodes : host.encodes b.markup with
      | false => exact .cut hcreated hdirMarkup (.inl ⟨rfl, hencodes⟩)
      | true =>
          cases hdirCode : t₁.isDirectoryAt (Target.inDirectory t.cwd directory stem).code with
          | true =>
              exact .cut hcreated hdirMarkup
                (.inr ⟨rfl, not_canHold_of_isDirectoryAt hcreated (.inr rfl) hdirCode⟩)
          | false =>
              have hfree : ∀ place, (Target.inDirectory t.cwd directory stem).Includes place →
                  t₁.isDirectoryAt place = false := by
                rintro place (rfl | rfl)
                · exact hdirMarkup
                · exact hdirCode
              cases hencodes' : host.encodes b.code with
              | false => exact .emptied hcreated hfree hencodes'
              | true =>
                  exact .whole hcreated hmarkup hcode hfree
                    (canHold_of_created hcreated hnull hway hdirs hfree) ⟨hencodes, hencodes'⟩

end Created

theorem written_write {t : FileTree} (ht : t.Consistent) {stem : String}
    (hstem : isStem stem = true) (host : Host) (b : Bundle) (directory : Path) :
    Written host b t directory stem (b.writeOn host directory stem t).1
      (b.writeOn host directory stem t).2 := by
  rcases hcreate : t.createDirectory directory with ⟨t₁, result⟩
  cases result with
  | error e =>
      have hcreated := FileTree.createDirectory_created ht directory
      rw [hcreate] at hcreated
      rw [Bundle.writeOn, hcreate]
      have hblocked := FileTree.createDirectory_error ht (congrArg Prod.snd hcreate)
      refine .refused hcreated (hblocked.imp_right And.left) fun hcan => ?_
      rcases hblocked with hnull | ⟨-, d, hd, hfile⟩
      · rw [hcan.named] at hnull
        cases hnull
      · rw [hcan.way d hd] at hfile
        cases hfile
  | ok _ => exact written_of_createDirectory ht hstem hcreate host b

/-! ## What is left of a tree -/

/-- The files have the two results as their contents. -/
def OutputFiles.Hold (files : OutputFiles) (t : FileTree) (b : Bundle) : Prop :=
  t.read files.markup = .ok b.markup.toUTF8 ∧ t.read files.code = .ok b.code.toUTF8

theorem Host.bytes_of_encodes {host : Host} {text : String} (h : host.encodes text = true) :
    host.bytes text = text.toUTF8 := by
  rw [Host.bytes, if_pos h]

/-- Contents that are stored where two paths lead are found there. -/
theorem read_storeAt_pair {t : FileTree} {p q : Path} {m c : Place} (hp : t.locate p = .ok m)
    (hq : t.locate q = .ok c) (hne : m ≠ c) (hm : t.isDirectoryAt m = false)
    (hc : t.isDirectoryAt c = false) (x y : ByteArray) :
    ((t.storeAt m x).storeAt c y).read p = .ok x ∧
      ((t.storeAt m x).storeAt c y).read q = .ok y := by
  have hextends := (FileTree.Extends.storeAt t m x).trans (.storeAt _ c y)
  constructor
  · apply FileTree.read_of_contentAt? (hextends.locate hp) hm
    rw [FileTree.contentAt?_storeAt, if_neg hne, FileTree.contentAt?_storeAt, if_pos rfl]
  · apply FileTree.read_of_contentAt? (hextends.locate hq) hc
    rw [FileTree.contentAt?_storeAt, if_pos rfl]

namespace Written

variable {host : Host} {b : Bundle} {t t' : FileTree} {directory : Path} {stem : String}
  {r : Except Fault OutputFiles}

theorem grows (h : Written host b t directory stem t' r) : t.Extends t' := by
  cases h with
  | refused hcreated => exact hcreated.toExtends
  | cut hcreated => exact hcreated.toExtends.trans (.storeAt ..)
  | emptied hcreated | whole hcreated =>
      exact hcreated.toExtends.trans ((FileTree.Extends.storeAt ..).trans (.storeAt ..))

theorem consistent (h : Written host b t directory stem t' r) : t'.Consistent := by
  cases h with
  | refused hcreated => exact hcreated.consistent
  | cut hcreated hmarkup => exact hcreated.consistent.storeAt hmarkup _
  | emptied hcreated hfree | whole hcreated _ _ hfree =>
      exact (hcreated.consistent.storeAt (hfree _ (.inl rfl)) _).storeAt (hfree _ (.inr rfl)) _

/-- A place keeps its content or has what writing leaves of the result that goes to it. -/
theorem content_cases (h : Written host b t directory stem t' r) (place : Place) :
    t'.contentAt? place = t.contentAt? place ∨
      place = (Target.inDirectory t.cwd directory stem).markup ∧
        t'.contentAt? place = some (host.bytes b.markup) ∨
      place = (Target.inDirectory t.cwd directory stem).code ∧
        t'.contentAt? place = some (host.bytes b.code) := by
  have hsame : ∀ {t₁ : FileTree}, FileTree.Created t t₁ (t.wayTo directory) →
      t₁.contentAt? place = t.contentAt? place := by
    intro t₁ hcreated
    rw [FileTree.contentAt?, hcreated.files, FileTree.contentAt?]
  cases h with
  | refused hcreated => exact .inl (hsame hcreated)
  | cut hcreated =>
      rw [FileTree.contentAt?_storeAt]
      split
      · next hplace => exact .inr (.inl ⟨hplace, rfl⟩)
      · exact .inl (hsame hcreated)
  | emptied hcreated | whole hcreated =>
      rw [FileTree.contentAt?_storeAt, FileTree.contentAt?_storeAt]
      split
      · next hplace => exact .inr (.inr ⟨hplace, rfl⟩)
      split
      · next hplace => exact .inr (.inl ⟨hplace, rfl⟩)
      · exact .inl (hsame hcreated)

/-- Writing succeeds exactly if there is room for the results and they can be encoded. -/
theorem eq_ok_iff (h : Written host b t directory stem t' r) :
    r = .ok (.inDirectory directory stem) ↔ CanHold t directory stem ∧ Encodable host b := by
  cases h with
  | refused _ _ hcannot => exact ⟨nofun, fun h => absurd h.1 hcannot⟩
  | cut _ _ hcut =>
      refine ⟨nofun, ?_⟩
      rintro ⟨hcan, hmarkup, -⟩
      rcases hcut with ⟨-, hnot⟩ | ⟨-, hcannot⟩
      · rw [hmarkup] at hnot
        cases hnot
      · exact absurd hcan hcannot
  | emptied _ _ hcode =>
      refine ⟨nofun, ?_⟩
      rintro ⟨-, -, hencodes⟩
      rw [hcode] at hencodes
      cases hencodes
  | whole _ _ _ _ hcan hencodable => exact ⟨fun _ => ⟨hcan, hencodable⟩, fun _ => rfl⟩

theorem error_cases (h : Written host b t directory stem t' r) (hnull : directory.hasNull = false)
    {e : Fault} (he : r = .error e) :
    e.isFileAccess = true ∧ ¬CanHold t directory stem ∨
      e = .unencodable ∧ ¬Encodable host b := by
  cases h with
  | refused _ hfault hcannot =>
      cases he
      rw [hnull] at hfault
      exact .inl ⟨hfault.resolve_left Bool.false_ne_true, hcannot⟩
  | cut _ _ hcut =>
      cases he
      refine hcut.symm.imp_right fun hmarkup => ⟨hmarkup.1, fun hencodable => ?_⟩
      rw [hencodable.1] at hmarkup
      cases hmarkup.2
  | emptied _ _ hcode =>
      cases he
      refine .inr ⟨rfl, fun hencodable => ?_⟩
      rw [hencodable.2] at hcode
      cases hcode
  | whole => cases he

theorem hold {files : OutputFiles} (h : Written host b t directory stem t' (.ok files)) :
    (OutputFiles.inDirectory directory stem).Hold t' b := by
  cases h with
  | whole _ hmarkup hcode hfree _ hencodable =>
      rw [Host.bytes_of_encodes hencodable.1, Host.bytes_of_encodes hencodable.2]
      exact read_storeAt_pair hmarkup hcode (Target.markup_ne_code _ _) (hfree _ (.inl rfl))
        (hfree _ (.inr rfl)) _ _

end Written

/-- Results stay in place until something else is stored there. -/
theorem OutputFiles.Hold.of_extends {t t' : FileTree} {b : Bundle} {directory : Path}
    {stem : String} (hstem : isStem stem = true)
    (h : (OutputFiles.inDirectory directory stem).Hold t b)
    (he : t.Extends t') (ht : t.Consistent) (ht' : t'.Consistent)
    (hsame : ∀ place, (Target.inDirectory t.cwd directory stem).Includes place →
      t'.contentAt? place = t.contentAt? place) :
    (OutputFiles.inDirectory directory stem).Hold t' b := by
  constructor
  · exact he.read ht ht' h.1 (hsame _ (.inl (resolve_markup hstem t.cwd directory)))
  · exact he.read ht ht' h.2 (hsame _ (.inr (resolve_code hstem t.cwd directory)))

end PageForms
