import PageForms.Proofs.Command.Output

/-!
# Results that are written together

Under whatever name they are written, the two results go into one directory or nowhere at all. So
once the file of the markup has been opened, only a text without an encoding or a directory in the
place of the code can keep both results from being stored. In these cases (`Torn`) the files are
left as they are then; otherwise both results are stored or every file is as it was before.
-/

namespace PageForms

/-! ## Names with slashes in them -/

namespace Path

/-- What stands behind the last slash of a text grows when something is put behind the text. -/
theorem splitSlashes_append (cs : List Char) :
    ∃ front last, ∀ ending : List Char, '/' ∉ ending →
      splitSlashes (cs ++ ending) = front ++ [last ++ ending] := by
  induction cs with
  | nil => exact ⟨[], [], fun ending h => splitSlashes_of_not_mem h⟩
  | cons c cs ih =>
      obtain ⟨front, last, hsplit⟩ := ih
      by_cases hc : c = '/'
      · refine ⟨[] :: front, last, ?_⟩
        intro ending h
        rw [List.cons_append, splitSlashes, if_pos hc, hsplit ending h]
        rfl
      · cases front with
        | nil =>
            refine ⟨[], c :: last, ?_⟩
            intro ending h
            rw [List.cons_append, splitSlashes, if_neg hc, hsplit ending h]
            rfl
        | cons part front =>
            refine ⟨(c :: part) :: front, last, ?_⟩
            intro ending h
            rw [List.cons_append, splitSlashes, if_neg hc, hsplit ending h]
            rfl

private theorem start_append_dot (cs ending : List Char) :
    PathStart.ofText (cs ++ '.' :: ending) = PathStart.ofText cs := by
  rcases cs with _ | ⟨a, _ | ⟨b, _ | ⟨c, cs⟩⟩⟩
  · rfl
  · by_cases ha : a = '/' <;> simp [PathStart.ofText, ha]
  · by_cases ha : a = '/' <;> by_cases hb : b = '/' <;> simp [PathStart.ofText, ha, hb]
  · by_cases ha : a = '/' <;> by_cases hb : b = '/' <;> by_cases hc : c = '/' <;>
      simp [PathStart.ofText, ha, hb, hc]

private theorem join_concat (p : Path) (start : PathStart) (parts : List String) (name : String) :
    p.join ⟨start, parts ++ [name]⟩ =
      { p.join ⟨start, parts⟩ with parts := (p.join ⟨start, parts⟩).parts ++ [name] } := by
  cases start with
  | here => exact congrArg (Path.mk p.start) (List.append_assoc ..).symm
  | root => rfl
  | doubledRoot => rfl

def isEnding (ending : String) : Bool :=
  ending.toList.head? == some '.' && decide (2 < ending.length) && isName ending

/-- Whatever its ending, a text names a file in one directory, and only the name of the file has the
ending. -/
theorem exists_ofText_append (stem : String) :
    ∃ start parts name, ∀ ending, isEnding ending = true →
      ofText (stem ++ ending) = ⟨start, parts ++ [name ++ ending]⟩ := by
  obtain ⟨front, last, hsplit⟩ := splitSlashes_append stem.toList
  refine ⟨PathStart.ofText stem.toList,
    (front.map String.ofList).filter fun part => part != "" && part != ".",
    String.ofList last, ?_⟩
  intro ending hending
  simp only [isEnding, isName, Bool.and_eq_true, beq_iff_eq, decide_eq_true_eq,
    Bool.not_eq_true', List.contains_eq_mem, decide_eq_false_iff_not] at hending
  obtain ⟨⟨hdot, hlong⟩, ⟨-, hslash⟩, -⟩ := hending
  obtain ⟨rest, hrest⟩ := List.head?_eq_some_iff.1 hdot
  have hlast : (String.ofList last ++ ending != "" && String.ofList last ++ ending != ".") =
      true := by
    have hshort : ∀ s : String, s.length ≤ 2 → String.ofList last ++ ending ≠ s := by
      rintro s hs rfl
      rw [String.length_append] at hs
      omega
    simp [hshort "" (by decide), hshort "." (by decide)]
  rw [ofText, String.toList_append, hsplit _ hslash, List.map_append, List.filter_append,
    List.map_singleton, String.ofList_append, String.ofList_toList, List.filter_cons, if_pos hlast,
    hrest, start_append_dot]
  rfl

/-- A file with any ending that is named from a directory lies in one directory, and only its name
has the ending. -/
theorem exists_child_append (directory : Path) (stem : String) :
    ∃ (p : Path) (name : String), ∀ ending, isEnding ending = true →
      directory.child (stem ++ ending) = { p with parts := p.parts ++ [name ++ ending] } := by
  obtain ⟨start, parts, name, htext⟩ := exists_ofText_append stem
  refine ⟨directory.join ⟨start, parts⟩, name, ?_⟩
  intro ending hending
  rw [child, htext ending hending, join_concat]

end Path

/-! ## Two files of one directory -/

namespace FileTree

/-- Every file outside some places has the content that it had, and no other file is there. -/
def SameOutside (t t' : FileTree) (places : List Place) : Prop :=
  ∀ place, place ∉ places → t'.contentAt? place = t.contentAt? place

private theorem Created.sameOutside {t t' : FileTree} {way : List Place} (h : Created t t' way)
    (places : List Place) : t.SameOutside t' places := by
  intro place _
  rw [contentAt?, h.files, contentAt?]

theorem SameOutside.storeAt {t t' : FileTree} {places : List Place} (h : t.SameOutside t' places)
    {place : Place} (hplace : place ∈ places) (bytes : ByteArray) :
    t.SameOutside (t'.storeAt place bytes) places := by
  intro q hq
  have hne : q ≠ place := fun heq => hq (heq ▸ hplace)
  rw [contentAt?_storeAt, if_neg hne]
  exact h q hq

private theorem walk_single (t : FileTree) (place : Place) {name : String} (h : name ≠ "..") :
    t.walk place [name] =
      if t.isDirectoryAt place then .ok (place ++ [name])
      else if t.isFileAt place then .error .notDirectory else .error .fileNotFound := by
  rw [walk_cons, Path.next, if_neg h]
  rfl

private theorem locate_concat (t : FileTree) (p : Path) (name : String) :
    t.locate { p with parts := p.parts ++ [name] } =
      if p.hasNull || name.toList.contains '\x00' then .error .nullInPath
      else t.walk (if p.absolute then [] else t.cwd) p.parts >>= fun q => t.walk q [name] := by
  have hnull : ({ p with parts := p.parts ++ [name] } : Path).hasNull =
      (p.hasNull || name.toList.contains '\x00') := by
    rw [Path.hasNull, List.any_append, List.any_cons, List.any_nil, Bool.or_false, Path.hasNull]
  rw [locate, hnull, walk_append]
  rfl

/-- Two names in one directory lead into it, or neither leads anywhere. -/
theorem locate_siblings (t : FileTree) (p : Path) {x y : String} (hx : x ≠ "..") (hy : y ≠ "..")
    (hnull : x.toList.contains '\x00' = y.toList.contains '\x00') :
    (∃ e, t.locate { p with parts := p.parts ++ [x] } = .error e ∧
      t.locate { p with parts := p.parts ++ [y] } = .error e) ∨
    ∃ place, t.locate { p with parts := p.parts ++ [x] } = .ok (place ++ [x]) ∧
      t.locate { p with parts := p.parts ++ [y] } = .ok (place ++ [y]) := by
  rw [locate_concat, locate_concat, hnull]
  split
  · exact .inl ⟨_, rfl, rfl⟩
  cases t.walk (if p.absolute then [] else t.cwd) p.parts with
  | error e => exact .inl ⟨e, rfl, rfl⟩
  | ok place =>
      rw [ok_bind, ok_bind, walk_single t place hx, walk_single t place hy]
      split
      · exact .inr ⟨place, rfl, rfl⟩
      · split <;> exact .inl ⟨_, rfl, rfl⟩

end FileTree

def OutputFiles.places (files : OutputFiles) (cwd : Place) : List Place :=
  [files.markup.resolve cwd, files.code.resolve cwd]

/-- Under any name, both results go into one directory, or neither goes anywhere. -/
theorem OutputFiles.locate_cases (t : FileTree) (directory : Path) (stem : String) :
    (∃ e, t.locate (inDirectory directory stem).markup = .error e ∧
      t.locate (inDirectory directory stem).code = .error e) ∨
    ∃ x : Target, t.locate (inDirectory directory stem).markup = .ok x.markup ∧
      t.locate (inDirectory directory stem).code = .ok x.code := by
  obtain ⟨p, name, hchild⟩ := Path.exists_child_append directory stem
  have hlong : ∀ ending : String, 2 < ending.length → name ++ ending ≠ ".." := by
    intro ending hending heq
    have hlength := congrArg String.length heq
    rw [String.length_append, show "..".length = 2 from rfl] at hlength
    omega
  have hnull : (name ++ ".html").toList.contains '\x00' =
      (name ++ ".cljs").toList.contains '\x00' := by
    simp [String.toList_append]
  rw [inDirectory, hchild ".html" (by decide), hchild ".cljs" (by decide)]
  rcases t.locate_siblings p (hlong ".html" (by decide)) (hlong ".cljs" (by decide)) hnull with
    herror | ⟨place, hmarkup, hcode⟩
  · exact .inl herror
  · exact .inr ⟨⟨place, name⟩, hmarkup, hcode⟩

/-! ## Both or none -/

private theorem writeFiles_of_locate_error {t : FileTree} {files : OutputFiles} {e : Fault}
    (h : t.locate files.markup = .error e) (host : Host) (b : Bundle) :
    b.writeFiles host files t = (t, .error e) := by
  rw [Bundle.writeFiles, Host.writeText, FileTree.write, h]
  rfl

private theorem isDirectory_of_locate {t : FileTree} {p : Path} {place : Place}
    (h : t.locate p = .ok place) : t.isDirectory p = t.isDirectoryAt place := by
  rw [FileTree.isDirectory, h]

/-- The directory of the results has been made, and the file of the markup can be opened. -/
def Opened (t t₁ : FileTree) (directory : Path) (stem : String) : Prop :=
  t.createDirectory directory = (t₁, .ok ()) ∧
    ∃ place, t₁.locate (OutputFiles.inDirectory directory stem).markup = .ok place ∧
      t₁.isDirectoryAt place = false

/-- The ways in which writing fails when the file of the markup has been opened, each with the
fault, what the markup is then, and what the code is if it is not as it was. -/
inductive Torn (host : Host) (b : Bundle) (t : FileTree) (directory : Path) (stem : String) :
    Fault → ByteArray → Option ByteArray → Prop
  | markup {t₁ : FileTree} (hopened : Opened t t₁ directory stem)
      (hmarkup : host.encodes b.markup = false) :
      Torn host b t directory stem .unencodable .empty none
  | blocked {t₁ : FileTree} (hopened : Opened t t₁ directory stem)
      (hmarkup : host.encodes b.markup = true)
      (hcode : t₁.isDirectory (OutputFiles.inDirectory directory stem).code = true) :
      Torn host b t directory stem .isDirectory b.markup.toUTF8 none
  | code {t₁ : FileTree} (hopened : Opened t t₁ directory stem)
      (hmarkup : host.encodes b.markup = true)
      (hfree : t₁.isDirectory (OutputFiles.inDirectory directory stem).code = false)
      (hcode : host.encodes b.code = false) :
      Torn host b t directory stem .unencodable b.markup.toUTF8 (some .empty)

private theorem Host.bytes_of_refused {host : Host} {text : String}
    (h : host.encodes text = false) :
    host.bytes text = .empty := by
  rw [Host.bytes, h]
  rfl

section Write

variable {t t₁ : FileTree} {directory : Path} {stem : String}

/-- Nothing is stored before it is known where the results go. -/
theorem write_of_locate_error (hcreate : t.createDirectory directory = (t₁, .ok ())) {e : Fault}
    (hmarkup : t₁.locate (OutputFiles.inDirectory directory stem).markup = .error e) (host : Host)
    (b : Bundle) : b.writeOn host directory stem t = (t₁, .error e) := by
  rw [write_of_createDirectory hcreate, writeFiles_of_locate_error hmarkup]
  rfl

/-- The places of both results are known when the directory has been made. -/
theorem places_of_locate (ht : t.Consistent)
    (hcreate : t.createDirectory directory = (t₁, .ok ())) {x : Target}
    (hmarkup : t₁.locate (OutputFiles.inDirectory directory stem).markup = .ok x.markup)
    (hcode : t₁.locate (OutputFiles.inDirectory directory stem).code = .ok x.code) :
    (OutputFiles.inDirectory directory stem).places t.cwd = [x.markup, x.code] := by
  have hcreated := FileTree.createDirectory_created ht directory
  rw [hcreate] at hcreated
  rw [OutputFiles.places, ← hcreated.cwd, (FileTree.locate_eq_ok hmarkup).1,
    (FileTree.locate_eq_ok hcode).1]

/-- What is left where the writing is torn. -/
theorem write_of_torn (ht : t.Consistent) {host : Host} {b : Bundle} {e : Fault}
    {markup : ByteArray} {code : Option ByteArray}
    (h : Torn host b t directory stem e markup code) :
    (b.writeOn host directory stem t).2 = .error e ∧
      (b.writeOn host directory stem t).1.read (OutputFiles.inDirectory directory stem).markup =
        .ok markup ∧
      (∀ bytes, code = some bytes →
        (b.writeOn host directory stem t).1.read (OutputFiles.inDirectory directory stem).code =
          .ok bytes) ∧
      t.SameOutside (b.writeOn host directory stem t).1
        (((OutputFiles.inDirectory directory stem).places t.cwd).take
          (if code.isSome then 2 else 1)) := by
  have hexists : ∃ t₁, Opened t t₁ directory stem := by
    cases h with
    | markup hopened | blocked hopened | code hopened => exact ⟨_, hopened⟩
  obtain ⟨t₁, hcreate, place, hplace, hm⟩ := hexists
  rcases OutputFiles.locate_cases t₁ directory stem with ⟨e', hmarkup, -⟩ | ⟨x, hmarkup, hcode⟩
  · rw [hplace] at hmarkup
    cases hmarkup
  cases hplace.symm.trans hmarkup
  have hcreated := FileTree.createDirectory_created ht directory
  rw [hcreate] at hcreated
  have hopen : ∀ bytes, (t₁.storeAt x.markup bytes).read
      (OutputFiles.inDirectory directory stem).markup = .ok bytes := by
    intro bytes
    apply FileTree.read_of_contentAt? ((FileTree.Extends.storeAt ..).locate hmarkup) hm
    rw [FileTree.contentAt?_storeAt, if_pos rfl]
  rw [write_of_locate hcreate hmarkup hcode, hm, places_of_locate ht hcreate hmarkup hcode]
  cases h with
  | markup _ hencodes =>
      rw [hencodes, Host.bytes_of_refused hencodes]
      exact ⟨rfl, hopen _, nofun, (hcreated.sameOutside _).storeAt (by simp) _⟩
  | blocked hopened hencodes hdir =>
      cases hcreate.symm.trans hopened.1
      rw [isDirectory_of_locate hcode] at hdir
      rw [hencodes, hdir, Host.bytes_of_encodes hencodes]
      exact ⟨rfl, hopen _, nofun, (hcreated.sameOutside _).storeAt (by simp) _⟩
  | code hopened hencodes hfree hrefused =>
      cases hcreate.symm.trans hopened.1
      rw [isDirectory_of_locate hcode] at hfree
      rw [hencodes, hfree, hrefused, Host.bytes_of_encodes hencodes,
        Host.bytes_of_refused hrefused]
      obtain ⟨hreadMarkup, hreadCode⟩ := read_storeAt_pair hmarkup hcode
        (Target.markup_ne_code x x) hm hfree b.markup.toUTF8 .empty
      refine ⟨rfl, hreadMarkup, ?_, ((hcreated.sameOutside _).storeAt (by simp) _).storeAt
        (by simp) _⟩
      rintro bytes ⟨⟩
      exact hreadCode

end Write

/-- Unless the writing is torn, both results are written and no other file is touched, or the
writing fails and every file is as it was. If it is torn, it fails as well, and the two files are
left as it says; no other file is touched. -/
theorem write_both_or_none_unless_torn (host : Host) {t : FileTree} (ht : t.Consistent) (b : Bundle)
    (directory : Path) (stem : String) :
    ((∀ e markup code, ¬Torn host b t directory stem e markup code) →
      ((b.writeOn host directory stem t).2 = .ok (.inDirectory directory stem) ∧
        (OutputFiles.inDirectory directory stem).Hold (b.writeOn host directory stem t).1 b ∧
        t.SameOutside (b.writeOn host directory stem t).1
          ((OutputFiles.inDirectory directory stem).places t.cwd)) ∨
      ((∃ e, (b.writeOn host directory stem t).2 = .error e) ∧
        t.SameOutside (b.writeOn host directory stem t).1 [])) ∧
    ∀ e markup code, Torn host b t directory stem e markup code →
      (b.writeOn host directory stem t).2 = .error e ∧
      (b.writeOn host directory stem t).1.read (OutputFiles.inDirectory directory stem).markup =
        .ok markup ∧
      (∀ bytes, code = some bytes →
        (b.writeOn host directory stem t).1.read (OutputFiles.inDirectory directory stem).code =
          .ok bytes) ∧
      t.SameOutside (b.writeOn host directory stem t).1
        (((OutputFiles.inDirectory directory stem).places t.cwd).take
          (if code.isSome then 2 else 1)) := by
  refine ⟨fun htorn => ?_, fun e markup code htorn => write_of_torn ht htorn⟩
  have hcreated := FileTree.createDirectory_created ht directory
  rcases hcreate : t.createDirectory directory with ⟨t₁, e | ⟨⟩⟩
  · rw [hcreate] at hcreated
    have hwrite : b.writeOn host directory stem t = (t₁, .error e) := by
      rw [Bundle.writeOn, hcreate]
    rw [hwrite]
    exact .inr ⟨⟨e, rfl⟩, hcreated.sameOutside _⟩
  rw [hcreate] at hcreated
  rcases OutputFiles.locate_cases t₁ directory stem with ⟨e, hmarkup, -⟩ | ⟨x, hmarkup, hcode⟩
  · rw [write_of_locate_error hcreate hmarkup]
    exact .inr ⟨⟨e, rfl⟩, hcreated.sameOutside _⟩
  rw [write_of_locate hcreate hmarkup hcode, places_of_locate ht hcreate hmarkup hcode]
  cases hm : t₁.isDirectoryAt x.markup with
  | true => exact .inr ⟨⟨_, rfl⟩, hcreated.sameOutside _⟩
  | false =>
      have hopened : Opened t t₁ directory stem := ⟨hcreate, x.markup, hmarkup, hm⟩
      cases hencodes : host.encodes b.markup with
      | false => exact absurd (.markup hopened hencodes) (htorn _ _ _)
      | true =>
          cases hc : t₁.isDirectoryAt x.code with
          | true =>
              rw [← isDirectory_of_locate hcode] at hc
              exact absurd (.blocked hopened hencodes hc) (htorn _ _ _)
          | false =>
              cases hencodes' : host.encodes b.code with
              | false =>
                  rw [← isDirectory_of_locate hcode] at hc
                  exact absurd (.code hopened hencodes hc hencodes') (htorn _ _ _)
              | true =>
                  rw [Host.bytes_of_encodes hencodes, Host.bytes_of_encodes hencodes']
                  refine .inl ⟨rfl, ?_, ?_⟩
                  · exact read_storeAt_pair hmarkup hcode (Target.markup_ne_code x x) hm hc _ _
                  · exact ((hcreated.sameOutside _).storeAt (by simp) _).storeAt (by simp) _

/-! ## A directory in the place of the code -/

def blockedCode : FileTree :=
  { cwd := ["w"]
    directories := [["w"], ["w", "o"], ["w", "o", "a.cljs"]]
    files := [(["w", "o", "a.html"], "old".toUTF8)] }

private theorem isTree_blockedCode : blockedCode.IsTree :=
  ⟨by decide, by decide, by decide, by decide, by decide +kernel⟩

private theorem opened_blockedCode :
    Opened blockedCode blockedCode ⟨.here, ["o"]⟩ "a" :=
  ⟨rfl, ["w", "o", "a.html"], by decide +kernel, by decide⟩

def halfPair : Bundle :=
  { markup := String.ofList ['<', 'p', '>', Text.ofCodePoint 0xd83d], code := "(ns a)" }

/-- A directory in the place of the code, and a markup that has no encoding. -/
theorem write_both_or_none_unless_torn_blocked :
    blockedCode.Consistent ∧
      ((⟨"<p>", "(ns a)"⟩ : Bundle).writeOn .ideal ⟨.here, ["o"]⟩ "a" blockedCode).1.read
          ⟨.here, ["o", "a.html"]⟩ = .ok "<p>".toUTF8 ∧
      (halfPair.writeOn .strict ⟨.here, ["o"]⟩ "a" blockedCode).1.read
          ⟨.here, ["o", "a.html"]⟩ = .ok .empty := by
  have ht := isTree_blockedCode.consistent
  have hblocked : Torn .ideal ⟨"<p>", "(ns a)"⟩ blockedCode ⟨.here, ["o"]⟩ "a" .isDirectory
      "<p>".toUTF8 none := .blocked opened_blockedCode rfl (by decide +kernel)
  have hmarkup : Torn .strict halfPair blockedCode ⟨.here, ["o"]⟩ "a" .unencodable .empty none :=
    .markup opened_blockedCode (by decide +kernel)
  exact ⟨ht,
    ((write_both_or_none_unless_torn .ideal ht _ ⟨.here, ["o"]⟩ "a").2 _ _ _ hblocked).2.1,
    ((write_both_or_none_unless_torn .strict ht _ ⟨.here, ["o"]⟩ "a").2 _ _ _ hmarkup).2.1⟩

/-- The writing fails, and still the page is no longer what it was. -/
theorem markup_written_without_code :
    blockedCode.IsTree ∧
      ((⟨"<p>", "(ns a)"⟩ : Bundle).write ⟨.here, ["o"]⟩ "a" blockedCode).2 =
        .error .isDirectory ∧
      ((⟨"<p>", "(ns a)"⟩ : Bundle).write ⟨.here, ["o"]⟩ "a" blockedCode).1.read
          ⟨.here, ["o", "a.html"]⟩ ≠
        blockedCode.read ⟨.here, ["o", "a.html"]⟩ := by
  refine ⟨isTree_blockedCode, ?_, ?_⟩
  · decide +kernel
  · decide +kernel

end PageForms
