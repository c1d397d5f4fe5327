import PageForms.Proofs.Command.Source

/-!
# Processing sources one after the other

What a batch does follows from what each source does at its turn: directories are only added, a
place has the content that it had or the result of a source that was compiled at its turn, and the
run ends early exactly where a source ends it.
-/

namespace PageForms.Compilation

/-! ## Names of sources -/

def ProperNames (root : Path) (sources : List Path) : Prop :=
  ∀ source ∈ sources, (source.relativeTo root).parts ≠ [] ∧
    (source.relativeTo root).parts.all Path.isName = true

namespace ProperNames

variable {root : Path} {sources : List Path}

theorem isStem (h : ProperNames root sources) {source : Path} (hsource : source ∈ sources) :
    isStem (source.relativeTo root).stem = true := by
  obtain ⟨hne, hnames⟩ := h source hsource
  apply isStem_of_isName
  rw [Path.name, List.getLastD_eq_getLast?, List.getLast?_eq_some_getLast hne]
  exact List.all_eq_true.1 hnames _ (List.getLast_mem hne)

theorem mono (h : ProperNames root sources) {some : List Path} (hsome : ∀ s ∈ some, s ∈ sources) :
    ProperNames root some :=
  fun source hsource => h source (hsome source hsource)

end ProperNames

/-- Proper names lead down from the output directory. -/
theorem resolve_outDirectory {root source : Path}
    (h : (source.relativeTo root).parts.all Path.isName = true) (outDir : Path) (cwd : Place) :
    (outDir.join (source.relativeTo root).parent).resolve cwd =
      outDir.resolve cwd ++ (source.relativeTo root).parts.dropLast := by
  apply Path.resolve_append
  rw [List.all_eq_true] at h ⊢
  exact fun name hname => h name (List.dropLast_subset _ hname)

/-- The results of two sources go to the same files. -/
def SameFiles (outDir root a b : Path) : Prop :=
  OutputFiles.ofSource outDir (a.relativeTo root) = OutputFiles.ofSource outDir (b.relativeTo root)

/-- Proper names lead to different places, so only sources of one name in one directory have one
target. -/
theorem parent_and_stem_of_target {root a b : Path}
    (ha : (a.relativeTo root).parts.all Path.isName = true)
    (hb : (b.relativeTo root).parts.all Path.isName = true) {cwd : Place} {outDir : Path}
    (h : Target.ofSource cwd outDir (a.relativeTo root) =
      Target.ofSource cwd outDir (b.relativeTo root)) :
    (a.relativeTo root).parent = (b.relativeTo root).parent ∧
      (a.relativeTo root).stem = (b.relativeTo root).stem := by
  injection h with hplace hstem
  rw [resolve_outDirectory ha, resolve_outDirectory hb] at hplace
  exact ⟨congrArg (Path.mk .here) (List.append_cancel_left hplace), hstem⟩

private theorem sameFiles_of_target {root a b : Path}
    (ha : (a.relativeTo root).parts.all Path.isName = true)
    (hb : (b.relativeTo root).parts.all Path.isName = true) {cwd : Place} {outDir : Path}
    (h : Target.ofSource cwd outDir (a.relativeTo root) =
      Target.ofSource cwd outDir (b.relativeTo root)) :
    SameFiles outDir root a b := by
  obtain ⟨hparent, hstem⟩ := parent_and_stem_of_target ha hb h
  rw [SameFiles, OutputFiles.ofSource, OutputFiles.ofSource, hparent, hstem]

theorem SameFiles.parent_and_stem {root a b outDir : Path} (h : SameFiles outDir root a b)
    {sources : List Path} (hnames : ProperNames root sources) (ha : a ∈ sources)
    (hb : b ∈ sources) :
    (a.relativeTo root).parent = (b.relativeTo root).parent ∧
      (a.relativeTo root).stem = (b.relativeTo root).stem := by
  have hmarkup := congrArg (fun files => files.markup.resolve []) h
  simp only [OutputFiles.ofSource] at hmarkup
  rw [OutputFiles.resolve_markup (hnames.isStem ha),
    OutputFiles.resolve_markup (hnames.isStem hb)] at hmarkup
  exact parent_and_stem_of_target (hnames a ha).2 (hnames b hb).2
    (Target.eq_of_append_eq hmarkup)

/-- The results of one source do not go to the place of another one. -/
def Misses (cwd : Place) (outDir root other source : Path) : Prop :=
  (OutputFiles.ofSource outDir (other.relativeTo root)).markup.resolve cwd ≠ source.resolve cwd ∧
    (OutputFiles.ofSource outDir (other.relativeTo root)).code.resolve cwd ≠ source.resolve cwd

theorem misses_iff {root other : Path} (hstem : isStem (other.relativeTo root).stem = true)
    (cwd : Place) (outDir source : Path) :
    Misses cwd outDir root other source ↔
      ¬(Target.ofSource cwd outDir (other.relativeTo root)).Includes (source.resolve cwd) := by
  rw [Misses, OutputFiles.ofSource, OutputFiles.resolve_markup hstem,
    OutputFiles.resolve_code hstem, Target.Includes, not_or]
  exact and_congr ne_comm ne_comm

/-! ## The run -/

section Run

variable {host : Host} {t : FileTree} {settings : Settings} {root : Path}

/-- What happens when it is the turn of a source of a batch. -/
def turn (host : Host) (t : FileTree) (settings : Settings) (root source : Path) : Step Status :=
  processSource host t settings source (source.relativeTo root)

theorem processed_turn (ht : t.Consistent) (host : Host) (settings : Settings) {source : Path}
    (hstem : isStem (source.relativeTo root).stem = true) :
    Processed host t settings source (source.relativeTo root)
      (turn host.showingAll t settings root source).tree
      (turn host.showingAll t settings root source).result :=
  processed_processSource ht host settings source hstem

theorem processAll_cons_of_ok {source : Path} {status : Status}
    (h : (turn host t settings root source).result = .ok status) (sources : List Path) :
    (processAll host t settings root (source :: sources)).tree =
      (processAll host (turn host t settings root source).tree settings root sources).tree ∧
    (processAll host t settings root (source :: sources)).result =
      (processAll host (turn host t settings root source).tree settings root sources).result.map
        ((source.relativeTo root, status) :: ·) := by
  -- The right-hand sides run the batch too, so only the left ones are opened.
  have hcons : processAll host t settings root (source :: sources) =
      (turn host t settings root source).andThen fun t status =>
        (processAll host t settings root sources).andThen fun t results =>
          .quiet t (.ok ((source.relativeTo root, status) :: results)) := rfl
  obtain ⟨htree, hresult⟩ := Step.andThen_of_ok h fun t status =>
    (processAll host t settings root sources).andThen fun t results =>
      .quiet t (.ok ((source.relativeTo root, status) :: results))
  obtain ⟨htree', hresult'⟩ := Step.andThen_quiet
    (processAll host (turn host t settings root source).tree settings root sources)
    ((source.relativeTo root, status) :: ·)
  rw [hcons]
  exact ⟨htree.trans htree', hresult.trans hresult'⟩

private theorem processAll_cons_of_error {source : Path} {e : Fault}
    (h : (turn host t settings root source).result = .error e) (sources : List Path) :
    (processAll host t settings root (source :: sources)).tree =
      (turn host t settings root source).tree ∧
    (processAll host t settings root (source :: sources)).result = .error e := by
  unfold turn at h ⊢
  unfold processAll
  exact Step.andThen_of_error h _

/-- Whatever the console refuses, the tree is as some of the sources, from the first one on, leave
it. -/
theorem exists_front_processAll (host : Host) (t : FileTree) (settings : Settings) (root : Path)
    (sources : List Path) :
    ∃ front, front <+: sources ∧ (processAll host t settings root sources).tree =
      (processAll host.showingAll t settings root front).tree := by
  induction sources generalizing t with
  | nil => exact ⟨[], List.prefix_rfl, rfl⟩
  | cons source sources ih =>
      have hsingle : (processAll host.showingAll t settings root [source]).tree =
          (turn host.showingAll t settings root source).tree := by
        cases hturn : (turn host.showingAll t settings root source).result with
        | error e => exact (processAll_cons_of_error hturn []).1
        | ok status => exact (processAll_cons_of_ok hturn []).1
      cases hresult : (turn host t settings root source).result with
      | error e =>
          rw [(processAll_cons_of_error hresult sources).1]
          rcases tree_processSource_cases host t settings source (source.relativeTo root) with
            htree | htree
          · exact ⟨[], List.nil_prefix, htree⟩
          · exact ⟨[source], ⟨sources, rfl⟩, htree.trans hsingle.symm⟩
      | ok status =>
          have heq : turn host t settings root source =
              turn host.showingAll t settings root source :=
            (cuts_processSource ..).eq_of_result fun hunshown => by
              cases hresult.symm.trans hunshown
          obtain ⟨front, hfront, htree⟩ := ih (turn host t settings root source).tree
          refine ⟨source :: front, (List.prefix_cons_inj source).2 hfront, ?_⟩
          rw [(processAll_cons_of_ok hresult sources).1, htree, heq,
            (processAll_cons_of_ok (heq ▸ hresult) front).1]

/-- A batch only adds directories and files. -/
theorem processAll_grows (ht : t.Consistent) (host : Host) (settings : Settings)
    {sources : List Path} (hnames : ProperNames root sources) :
    t.Extends (processAll host.showingAll t settings root sources).tree ∧
      (processAll host.showingAll t settings root sources).tree.Consistent := by
  induction sources generalizing t with
  | nil => exact ⟨.refl t, ht⟩
  | cons source sources ih =>
      have hstep := processed_turn ht host settings (hnames.isStem (List.mem_cons_self ..))
      cases hresult : (turn host.showingAll t settings root source).result with
      | error e =>
          rw [(processAll_cons_of_error hresult sources).1]
          exact ⟨hstep.grows, hstep.consistent ht⟩
      | ok status =>
          rw [(processAll_cons_of_ok hresult sources).1]
          obtain ⟨hgrows, hconsistent⟩ :=
            ih (hstep.consistent ht) (hnames.mono fun _ => List.mem_cons_of_mem _)
          exact ⟨hstep.grows.trans hgrows, hconsistent⟩

/-- A place has the content that it had, or that one of the sources stored there last. -/
theorem processAll_content (ht : t.Consistent) (host : Host) (settings : Settings)
    {sources : List Path} (hnames : ProperNames root sources) (place : Place) :
    (processAll host.showingAll t settings root sources).tree.contentAt? place =
        t.contentAt? place ∨
      ∃ before source after, sources = before ++ source :: after ∧
        StoredAt host t.cwd (processAll host.showingAll t settings root before).tree settings source
          (source.relativeTo root) place
          ((processAll host.showingAll t settings root sources).tree.contentAt? place) := by
  induction sources generalizing t with
  | nil => exact .inl rfl
  | cons source sources ih =>
      have hstep := processed_turn ht host settings (hnames.isStem (List.mem_cons_self ..))
      have hhead := hstep.content_cases place
      cases hresult : (turn host.showingAll t settings root source).result with
      | error e =>
          rw [(processAll_cons_of_error hresult sources).1]
          exact hhead.imp_right fun hstored => ⟨[], source, sources, rfl, hstored⟩
      | ok status =>
          rw [(processAll_cons_of_ok hresult sources).1]
          rcases ih (hstep.consistent ht) (hnames.mono fun _ => List.mem_cons_of_mem _) with
            hsame | ⟨before, other, after, rfl, hstored⟩
          · rw [hsame]
            exact hhead.imp_right fun hstored => ⟨[], source, sources, rfl, hstored⟩
          · refine .inr ⟨source :: before, other, after, rfl, ?_⟩
            rw [hstep.grows.cwd] at hstored
            rwa [(processAll_cons_of_ok hresult before).1]

/-- Sources that are processed without an end of the run leave the tree to the others. -/
theorem processAll_append {before : List Path} {results : List (Path × Status)}
    (h : (processAll host t settings root before).result = .ok results) (sources : List Path) :
    (processAll host t settings root (before ++ sources)).tree =
      (processAll host (processAll host t settings root before).tree settings root sources).tree ∧
    (processAll host t settings root (before ++ sources)).result =
      (processAll host (processAll host t settings root before).tree settings root
        sources).result.map (results ++ ·) := by
  induction before generalizing t results with
  | nil =>
      cases h
      refine ⟨rfl, ?_⟩
      change (processAll host t settings root sources).result =
        (processAll host t settings root sources).result.map ([] ++ ·)
      cases (processAll host t settings root sources).result <;> rfl
  | cons source before ih =>
      cases hresult : (turn host t settings root source).result with
      | error e =>
          rw [(processAll_cons_of_error hresult before).2] at h
          cases h
      | ok status =>
          obtain ⟨htree, hres⟩ := processAll_cons_of_ok hresult before
          rw [hres] at h
          cases hbefore : (processAll host (turn host t settings root source).tree settings root
            before).result with
          | error e =>
              rw [hbefore] at h
              cases h
          | ok results' =>
              rw [hbefore] at h
              cases h
              obtain ⟨htree', hres'⟩ := ih hbefore
              rw [List.cons_append, (processAll_cons_of_ok hresult (before ++ sources)).1,
                (processAll_cons_of_ok hresult (before ++ sources)).2, htree, htree', hres']
              refine ⟨rfl, ?_⟩
              cases (processAll host _ settings root sources).result <;> rfl

/-- A run ends early exactly if a source does at its turn. -/
theorem processAll_eq_error_iff {sources : List Path} {e : Fault} :
    (processAll host t settings root sources).result = .error e ↔
      ∃ before source after results, sources = before ++ source :: after ∧
        (processAll host t settings root before).result = .ok results ∧
        (turn host (processAll host t settings root before).tree settings root source).result =
          .error e := by
  constructor
  · intro h
    induction sources generalizing t with
    | nil => cases h
    | cons source sources ih =>
        cases hresult : (turn host t settings root source).result with
        | error e' =>
            rw [(processAll_cons_of_error hresult sources).2] at h
            cases h
            exact ⟨[], source, sources, [], rfl, rfl, hresult⟩
        | ok status =>
            rw [(processAll_cons_of_ok hresult sources).2] at h
            obtain ⟨before, other, after, results, rfl, hbefore, hother⟩ :=
              ih (map_eq_error_iff.1 h)
            obtain ⟨htree, hres⟩ := processAll_cons_of_ok hresult before
            refine ⟨source :: before, other, after, (source.relativeTo root, status) :: results,
              rfl, ?_, htree ▸ hother⟩
            rw [hres, hbefore]
            rfl
  · rintro ⟨before, source, after, results, rfl, hbefore, hsource⟩
    rw [(processAll_append hbefore _).2, (processAll_cons_of_error hsource after).2]
    rfl

/-- In a run that does not end early every source has its turn. -/
theorem exists_status_of_ok {before after : List Path} {source : Path}
    {results : List (Path × Status)}
    (h : (processAll host t settings root (before ++ source :: after)).result = .ok results) :
    ∃ earlier status, (processAll host t settings root before).result = .ok earlier ∧
      (source.relativeTo root, status) ∈ results ∧
      (turn host (processAll host t settings root before).tree settings root source).result =
        .ok status := by
  cases hbefore : (processAll host t settings root before).result with
  | error e =>
      obtain ⟨before', other, after', results', rfl, hother⟩ := processAll_eq_error_iff.1 hbefore
      have herror := processAll_eq_error_iff.2
        ⟨before', other, after' ++ source :: after, results', rfl, hother⟩
      rw [List.append_assoc, List.cons_append, herror] at h
      cases h
  | ok earlier =>
      rw [(processAll_append hbefore (source :: after)).2] at h
      cases hsource : (turn host (processAll host t settings root before).tree settings root
        source).result with
      | error e =>
          rw [(processAll_cons_of_error hsource after).2] at h
          cases h
      | ok status =>
          rw [(processAll_cons_of_ok hsource after).2] at h
          obtain ⟨rest, hrest, rfl⟩ := map_eq_ok h
          obtain ⟨rest', -, rfl⟩ := map_eq_ok hrest
          exact ⟨earlier, status, rfl, by simp, rfl⟩

/-- What no results have gone to is read as before. -/
theorem read_of_misses (host : Host) (ht : t.Consistent) {outDir : Path}
    (hout : settings.outDir = some outDir) {source : Path} {sources : List Path}
    (hnames : ProperNames root sources) {bytes : ByteArray} (hread : t.read source = .ok bytes)
    (hmiss : ∀ other ∈ sources, Misses t.cwd outDir root other source) :
    (processAll host.showingAll t settings root sources).tree.read source = .ok bytes := by
  obtain ⟨hgrows, hconsistent⟩ := processAll_grows ht host settings hnames
  rcases processAll_content ht host settings hnames (source.resolve t.cwd) with
    hsame | ⟨before, other, after, rfl, outDir', b, hout', -, -, hstored⟩
  · exact hgrows.read ht hconsistent hread hsame
  · cases hout.symm.trans hout'
    have hstem : isStem (other.relativeTo root).stem = true := hnames.isStem (by simp)
    exact absurd (hstored.imp And.left And.left)
      ((misses_iff hstem t.cwd outDir source).1 (hmiss other (by simp)))

/-- Results that are written at the turn of their source are there at the end of the run, unless
those of a later source go to the same files. -/
theorem hold_processAll {outDir : Path} (hout : settings.outDir = some outDir)
    {before after : List Path} {source : Path}
    (hnames : ProperNames root (before ++ source :: after)) {results : List (Path × Status)}
    (hbefore : (processAll host.showingAll t settings root before).result = .ok results)
    {status : Status}
    (hturn : (turn host.showingAll (processAll host.showingAll t settings root before).tree settings
      root source).result = .ok status) {b : Bundle} {files : OutputFiles}
    (hw : Written host b (processAll host.showingAll t settings root before).tree
      (outDir.join (source.relativeTo root).parent) (source.relativeTo root).stem
      (turn host.showingAll (processAll host.showingAll t settings root before).tree settings root
        source).tree (.ok files))
    (hlater : ∀ later ∈ after, ¬SameFiles outDir root source later) :
    (OutputFiles.ofSource outDir (source.relativeTo root)).Hold
      (processAll host.showingAll t settings root (before ++ source :: after)).tree b := by
  have hstem := hnames.isStem (List.mem_append_right before (List.mem_cons_self ..))
  have hafter : ProperNames root after := hnames.mono (by simp +contextual)
  rw [(processAll_append hbefore _).1, (processAll_cons_of_ok hturn after).1]
  obtain ⟨hgrows, hconsistent⟩ := processAll_grows hw.consistent host settings hafter
  refine hw.hold.of_extends hstem hgrows hw.consistent hconsistent ?_
  intro place hplace
  rcases processAll_content hw.consistent host settings hafter place with
    hsame | ⟨_, other, _, rfl, outDir', b', hout', -, -, hstored⟩
  · exact hsame
  · cases hout.symm.trans hout'
    have htarget := Target.eq_of_includes hplace (hstored.imp And.left And.left)
    have hsame := sameFiles_of_target (hnames source (by simp)).2 (hnames other (by simp)).2 htarget
    exact absurd hsame (hlater other (by simp))

end Run

/-! ## The sources of a run -/

private theorem mem_filesBelow_of_mem_sourcesBelow {t : FileTree} {path source : Path}
    (h : source ∈ sourcesBelow t path) : source ∈ t.filesBelow path := by
  rw [sourcesBelow, List.mem_mergeSort, List.mem_filter] at h
  exact h.1

/-- The sources below a directory can be read, and their names behind those of the directory are
proper. -/
theorem exists_of_mem_sourcesBelow {t : FileTree} (ht : t.IsTree) {path source : Path}
    (hpath : t.isDirectory path = true) (h : source ∈ sourcesBelow t path) :
    (∃ bytes, t.read source = .ok bytes) ∧ (source.relativeTo path).parts ≠ [] ∧
      (source.relativeTo path).parts.all Path.isName = true := by
  obtain ⟨hread, rest, hne, hnames, rfl⟩ :=
    ht.exists_of_mem_filesBelow hpath (mem_filesBelow_of_mem_sourcesBelow h)
  rw [Path.relativeTo, List.drop_left]
  exact ⟨hread, hne, hnames⟩

/-- The place of a source is below that of the directory. -/
theorem resolve_of_mem_sourcesBelow {t : FileTree} (ht : t.IsTree) {path source : Path}
    (hpath : t.isDirectory path = true) (h : source ∈ sourcesBelow t path) (cwd : Place) :
    source.resolve cwd = path.resolve cwd ++ (source.relativeTo path).parts := by
  obtain ⟨-, rest, -, hnames, rfl⟩ :=
    ht.exists_of_mem_filesBelow hpath (mem_filesBelow_of_mem_sourcesBelow h)
  rw [Path.relativeTo, List.drop_left, Path.resolve_append hnames]

theorem properNames_sourcesBelow {t : FileTree} (ht : t.IsTree) {path : Path}
    (hpath : t.isDirectory path = true) : ProperNames path (sourcesBelow t path) :=
  fun _ hsource => (exists_of_mem_sourcesBelow ht hpath hsource).2

/-- Neither of the places is on the way to the other. -/
def Apart (p q : Place) : Prop :=
  ¬p <+: q ∧ ¬q <+: p

private theorem Apart.append_ne {p q : Place} (h : Apart p q) (a b : Place) : p ++ a ≠ q ++ b := by
  intro heq
  have hp : p <+: q ++ b := heq ▸ List.prefix_append p a
  exact (List.prefix_or_prefix_of_prefix hp (List.prefix_append q b)).elim h.1 h.2

/-- If the output directory is apart from the sources, then no results go to a source. -/
theorem misses_of_apart {t : FileTree} (ht : t.IsTree) {path outDir other source : Path}
    (hpath : t.isDirectory path = true)
    (hapart : Apart (outDir.resolve t.cwd) (path.resolve t.cwd))
    (hother : other ∈ sourcesBelow t path) (hsource : source ∈ sourcesBelow t path) :
    Misses t.cwd outDir path other source := by
  have hnames := properNames_sourcesBelow ht hpath
  rw [misses_iff (hnames.isStem hother), resolve_of_mem_sourcesBelow ht hpath hsource]
  have hbelow : ∀ name : String, (outDir.join (other.relativeTo path).parent).resolve t.cwd ++
      [name] ≠ path.resolve t.cwd ++ (source.relativeTo path).parts := by
    intro name
    rw [resolve_outDirectory (hnames other hother).2, List.append_assoc]
    exact hapart.append_ne _ _
  rintro (h | h)
  · exact hbelow _ h.symm
  · exact hbelow _ h.symm

def exitCode (results : List (Path × Status)) : Nat :=
  if results.all fun result => result.2 == .ok then 0 else 1

theorem status_of_exitCode {results : List (Path × Status)} (h : exitCode results = 0)
    {relative : Path} {status : Status} (hmem : (relative, status) ∈ results) : status = .ok := by
  unfold exitCode at h
  split at h
  · next hall => simpa using List.all_eq_true.1 hall _ hmem
  · cases h

theorem tree_processBatch (host : Host) (t : FileTree) (settings : Settings) (root : Path)
    (sources : List Path) :
    (processBatch host t settings root sources).tree =
      (processAll host t settings root sources).tree := by
  unfold processBatch
  cases h : (processAll host t settings root sources).result with
  | error e => exact (Step.andThen_of_error h _).1
  | ok results => exact (Step.andThen_of_ok h _).1

private theorem result_processBatch (host : Host) (t : FileTree) (settings : Settings) (root : Path)
    (sources : List Path) :
    (processBatch host.showingAll t settings root sources).result =
      (processAll host.showingAll t settings root sources).result.map exitCode := by
  unfold processBatch
  cases h : (processAll host.showingAll t settings root sources).result with
  | error e => exact (Step.andThen_of_error h _).2
  | ok results =>
      rw [(Step.andThen_of_ok h _).2, sumUp, Host.say_showingAll]
      rfl

def rootOf (t : FileTree) (path : Path) : Path :=
  if t.isFile path then path.parent else path

/-- The sources that a run for a path compiles: the file, or the pages below the directory. -/
def sourcesOf (t : FileTree) (path : Path) : List Path :=
  if t.isFile path then [path] else sourcesBelow t path

private theorem isFile_of_isDirectory {t : FileTree} (ht : t.Consistent) {path : Path}
    (hpath : t.isDirectory path = true) : t.isFile path = false := by
  rw [← Bool.not_eq_true]
  intro hfile
  have hdir := (FileTree.isDirectory_eq_true hpath).2
  rw [ht.apart _ (FileTree.isFile_eq_true hfile).2] at hdir
  cases hdir

private theorem exists_of_mem_sourcesOf {t : FileTree} (ht : t.IsTree) {path source : Path}
    (hpath : t.exists? path = true) (h : source ∈ sourcesOf t path) :
    (∃ bytes, t.read source = .ok bytes) ∧ (source.relativeTo (rootOf t path)).parts ≠ [] ∧
      (source.relativeTo (rootOf t path)).parts.all Path.isName = true := by
  unfold sourcesOf at h
  unfold rootOf
  split at h
  · next hfile =>
    rw [if_pos hfile]
    cases List.mem_singleton.1 h
    obtain ⟨hread, front, name, hparts, hname⟩ := ht.exists_of_isFile hfile
    have hrelative : (path.relativeTo path.parent).parts = [name] := by
      rw [Path.relativeTo, Path.parent, hparts, List.dropLast_concat, List.drop_left]
    rw [hrelative]
    exact ⟨hread, List.cons_ne_nil _ _, by simp [hname]⟩
  · next hfile =>
    rw [if_neg hfile]
    refine exists_of_mem_sourcesBelow ht ?_ h
    rw [Bool.not_eq_true] at hfile
    rwa [FileTree.exists?, hfile, Bool.false_or] at hpath

theorem properNames_sourcesOf {t : FileTree} (ht : t.IsTree) {path : Path}
    (hpath : t.exists? path = true) : ProperNames (rootOf t path) (sourcesOf t path) :=
  fun _ hsource => (exists_of_mem_sourcesOf ht hpath hsource).2

/-- Compiling a path processes its sources. -/
theorem runWith_eq (host : Host) (t : FileTree) (settings : Settings) (path : Path) :
    (runWith host.showingAll t settings path).tree =
      (processAll host.showingAll t settings (rootOf t path) (sourcesOf t path)).tree ∧
    (runWith host.showingAll t settings path).result =
      (processAll host.showingAll t settings (rootOf t path) (sourcesOf t path)).result.map
        exitCode := by
  unfold runWith rootOf sourcesOf
  split
  · exact ⟨tree_processBatch .., result_processBatch ..⟩
  · split
    · next hnone =>
      rw [hnone, Host.say_showingAll]
      exact ⟨rfl, rfl⟩
    · rw [Host.say_showingAll]
      exact ⟨tree_processBatch .., result_processBatch ..⟩

/-- However a run goes, its tree is as some of the sources, from the first one on, leave it. -/
theorem exists_front_runWith (host : Host) (t : FileTree) (settings : Settings) (path : Path) :
    ∃ front, front <+: sourcesOf t path ∧ (runWith host t settings path).tree =
      (processAll host.showingAll t settings (rootOf t path) front).tree := by
  have hbatch : ∀ root sources, ∃ front, front <+: sources ∧
      (processBatch host t settings root sources).tree =
        (processAll host.showingAll t settings root front).tree := by
    intro root sources
    rw [tree_processBatch]
    exact exists_front_processAll ..
  unfold runWith rootOf sourcesOf
  split
  · exact hbatch ..
  · split
    · exact ⟨[], List.nil_prefix, rfl⟩
    · next sources _ =>
      unfold Step.andThen Step.next Host.say
      simp only
      split
      · exact ⟨[], List.nil_prefix, rfl⟩
      · exact hbatch ..

theorem run_of_load (host : Host) {t : FileTree} {overrides : Settings.Overrides} {path : Path}
    {settings : Settings} (hpath : t.exists? path = true)
    (hload : Settings.load t overrides (if t.isDirectory path then path else path.parent) =
      .ok settings) : run host t overrides path = runWith host t settings path := by
  rw [run, if_pos hpath, hload]

private theorem exists?_of_isDirectory {t : FileTree} {path : Path}
    (hpath : t.isDirectory path = true) :
    t.exists? path = true := by
  rw [FileTree.exists?, hpath, Bool.or_true]

/-- Compiling a directory processes the pages below it. -/
theorem run_directory (host : Host) {t : FileTree} (ht : t.Consistent)
    {overrides : Settings.Overrides} {path : Path} {settings : Settings}
    (hpath : t.isDirectory path = true) (hload : Settings.load t overrides path = .ok settings) :
    (run host.showingAll t overrides path).tree =
        (processAll host.showingAll t settings path (sourcesBelow t path)).tree ∧
      (run host.showingAll t overrides path).result =
        (processAll host.showingAll t settings path (sourcesBelow t path)).result.map
          exitCode := by
  have hrun := runWith_eq host t settings path
  rw [rootOf, sourcesOf, isFile_of_isDirectory ht hpath] at hrun
  rwa [run_of_load _ (exists?_of_isDirectory hpath) (by rwa [if_pos hpath])]

/-- However a run for a directory goes, its tree is as some of the pages below it, from the first
one on, leave it. -/
theorem exists_front_run (host : Host) {t : FileTree} (ht : t.Consistent)
    {overrides : Settings.Overrides} {path : Path} {settings : Settings}
    (hpath : t.isDirectory path = true) (hload : Settings.load t overrides path = .ok settings) :
    ∃ front, front <+: sourcesBelow t path ∧ (run host t overrides path).tree =
      (processAll host.showingAll t settings path front).tree := by
  have hfront := exists_front_runWith host t settings path
  rw [rootOf, sourcesOf, isFile_of_isDirectory ht hpath] at hfront
  rwa [run_of_load _ (exists?_of_isDirectory hpath) (by rwa [if_pos hpath])]

/-- Without settings a run changes nothing. -/
theorem tree_run_of_load_error (host : Host) {t : FileTree} {overrides : Settings.Overrides}
    {path : Path} {e : Fault} (hpath : t.isDirectory path = true)
    (hload : Settings.load t overrides path = .error e) :
    (run host t overrides path).tree = t := by
  rw [run, if_pos (exists?_of_isDirectory hpath), if_pos hpath, hload]
  simp only
  split <;> rfl

/-! ## Small runs -/

def overridesInto (outDir : Path) : Settings.Overrides :=
  { jsUri := none, baseUri := none, outDir := some outDir, lineWidth := none }

def settingsInto (outDir : Path) : Settings :=
  { jsUri := "main.js", baseUri := none, outDir := some outDir
    lineWidth := Datum.defaultWidth, doctype := "html" }

theorem load_overridesInto {t : FileTree} {search : Path} (hnull : search.hasNull = false)
    (hnone : Settings.nearestFile? t (search.resolve t.cwd) = none) (outDir : Path) :
    Settings.load t (overridesInto outDir) search = .ok (settingsInto outDir) := by
  unfold Settings.load Settings.loadSection
  rw [Path.place?, hnull, if_neg Bool.false_ne_true, ok_bind, hnone]
  rfl

theorem sourcesBelow_of_sorted {t : FileTree} {path : Path} {sources : List Path}
    (h : ((t.filesBelow path).filter fun p => (SourceKind.ofName? p.text).isSome) = sources)
    (hsorted : sources.Pairwise fun p q => Path.partsBefore p.parts q.parts = true) :
    sourcesBelow t path = sources := by
  rw [sourcesBelow, h, List.mergeSort_of_pairwise hsorted]

end PageForms.Compilation
