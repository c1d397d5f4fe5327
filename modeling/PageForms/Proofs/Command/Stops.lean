import PageForms.Proofs.Command.Batch
import PageForms.Proofs.Page.Faults

/-!
# What ends a run

A run ends early exactly if the console refuses one of its messages or a source stops it at its
turn: markup in which a declaration of an unknown kind opens, or results that cannot be encoded or
for which there is no place. Every source that has its turn before that is delivered if it compiles
and its results can be held.
-/

namespace PageForms

private theorem Utf8.decodeText_onlyRefuses (bytes : ByteArray) :
    OnlyRefuses (decodeText bytes) := by
  have hdecode : ∀ place bytes, OnlyRefuses (decodeAt place bytes) := by
    intro place bytes
    fun_induction decodeAt place bytes with
    | case1 => exact .ok _
    | _ => first | exact FaultsIn.map ‹_› _ | exact .error rfl
  exact ((hdecode 0 _).map _).bind fun _ _ => .ok _

namespace Compilation

/-! ## Faults of a source -/

private theorem isReported_of_readText {t : FileTree} {source : Path} {e : Fault}
    (h : t.readText source = .error e) : isReported e = true := by
  rw [isReported]
  cases hread : t.read source with
  | error e' =>
      rw [FileTree.readText, hread] at h
      cases h
      rcases FileTree.read_error hread with rfl | he
      · rfl
      · rw [he, Bool.or_true]
  | ok bytes =>
      rw [FileTree.readText, hread] at h
      rw [Utf8.decodeText_onlyRefuses bytes e h, Bool.or_true, Bool.true_or]

private theorem isReported_of_isFault {e : Fault} (h : Page.IsFault e) : isReported e = true := by
  rw [isReported]
  rcases h with h | h <;> simp [h]

/-- What stops a run at the turn of a source on a console that shows everything. -/
inductive Stops (host : Host) (t : FileTree) (settings : Settings) (source relative : Path) :
    Fault → Prop
  /-- The source is markup in which a declaration of an unknown kind opens. -/
  | declaration {text : String} (hkind : SourceKind.ofName? source.text = some .markup)
      (hread : t.readText source = .ok text)
      (hparse : Document.parse text = .error .unknownDeclaration) :
      Stops host t settings source relative .unknownDeclaration
  /-- No place can have the path that the results should go to. -/
  | unplaced {b : Bundle} {outDir : Path} (h : Compiles t settings.options source b)
      (hout : settings.outDir = some outDir)
      (hnull : (outDir.join relative.parent).hasNull = true) :
      Stops host t settings source relative .nullInPath
  /-- Something is in the way of the results, or one of them has no encoding. -/
  | unwritten {b : Bundle} {outDir : Path} {e : Fault} (h : Compiles t settings.options source b)
      (hout : settings.outDir = some outDir)
      (hnull : (outDir.join relative.parent).hasNull = false)
      (hown : ¬(Target.ofSource t.cwd outDir relative).Includes (source.resolve t.cwd))
      (hcause : e.isFileAccess = true ∧ ¬CanHold t (outDir.join relative.parent) relative.stem ∨
        e = .unencodable ∧ ¬Encodable host b)
      (hwrite : (b.writeOn host (outDir.join relative.parent) relative.stem t).2 = .error e) :
      Stops host t settings source relative e

theorem Processed.stops {host : Host} {t t' : FileTree} {settings : Settings}
    {source relative : Path} {e : Fault}
    (h : Processed host t settings source relative t' (.error e)) :
    Stops host t settings source relative e := by
  generalize hr : Except.error e = r at h
  cases h with
  | reported | skipped | shown | kept => cases hr
  | stopped hfails he =>
      cases hr
      obtain ⟨kind, hkind, hread | ⟨text, hread, hcompile⟩⟩ := hfails
      · rw [isReported_of_readText hread] at he
        cases he
      · rcases Page.compileSource_faultsIn kind text _ _ hcompile with hfault | ⟨rfl, rfl, hparse⟩
        · rw [isReported_of_isFault hfault] at he
          cases he
        · exact .declaration hkind hread hparse
  | unplaced hb hout hnull =>
      cases hr
      exact .unplaced hb hout hnull
  | @delivered b outDir t' r hb hout hnull hown hwrite hw =>
      cases r with
      | ok files => cases hr
      | error e' =>
          cases hr
          exact .unwritten hb hout hnull hown (hw.error_cases hnull rfl) (by rw [hwrite])

theorem Stops.result {host : Host} {t t' : FileTree} {settings : Settings}
    {source relative : Path} {e : Fault} {r : Except Fault Status}
    (h : Stops host t settings source relative e)
    (hstep : Processed host t settings source relative t' r) : r = .error e := by
  cases h with
  | @declaration text hkind hread hparse =>
      have hcompile : Page.compileSource .markup text settings.options =
          .error .unknownDeclaration := by
        rw [Page.compileSource, Page.planSource, Page.documentOf, Page.formsOfMarkup, hparse]
        rfl
      have hfails : Fails t settings.options source .unknownDeclaration :=
        ⟨.markup, hkind, .inr ⟨text, hread, hcompile⟩⟩
      cases hstep with
      | reported hfails' he =>
          cases hfails.unique hfails'
          cases he
      | stopped hfails' _ =>
          cases hfails.unique hfails'
          rfl
      | skipped hnone =>
          rw [hkind] at hnone
          cases hnone
      | shown hb | unplaced hb | kept hb | delivered hb => exact absurd hfails hb.not_fails
  | unplaced hb hout hnull =>
      rcases hstep.cases_of_compiles hb hout with ⟨rfl, -⟩ | ⟨hnot, -⟩
      · rfl
      · rw [hnull] at hnot
        cases hnot
  | unwritten hb hout hnull hown _ hwrite =>
      rcases hstep.cases_of_compiles hb hout with ⟨-, hnot⟩ | ⟨-, ⟨hkept, -⟩ | ⟨-, _, heq, -, rfl⟩⟩
      · rw [hnull] at hnot
        cases hnot
      · exact absurd hkept hown
      · rw [heq] at hwrite
        exact map_eq_error_iff.2 hwrite

private theorem turn_eq_error_iff (host : Host) {t : FileTree} (ht : t.Consistent)
    {settings : Settings} {root source : Path}
    (hstem : isStem (source.relativeTo root).stem = true) {e : Fault} :
    (turn host.showingAll t settings root source).result = .error e ↔
      Stops host t settings source (source.relativeTo root) e := by
  have hstep := processed_turn ht host settings hstem
  constructor
  · intro h
    rw [h] at hstep
    exact hstep.stops
  · exact fun h => h.result hstep

/-! ## Runs -/

section Run

variable {host : Host} {t : FileTree} {settings : Settings} {root : Path}

private theorem processAll_stopped_iff (host : Host) (ht : t.Consistent) {sources : List Path}
    (hnames : ProperNames root sources) {e : Fault} :
    (processAll host.showingAll t settings root sources).result = .error e ↔
      ∃ before source after results, sources = before ++ source :: after ∧
        (processAll host.showingAll t settings root before).result = .ok results ∧
        Stops host (processAll host.showingAll t settings root before).tree settings source
          (source.relativeTo root) e := by
  have hturn : ∀ before source after, sources = before ++ source :: after →
      ((turn host.showingAll (processAll host.showingAll t settings root before).tree settings root
          source).result = .error e ↔
        Stops host (processAll host.showingAll t settings root before).tree settings source
          (source.relativeTo root) e) := by
    rintro before source after rfl
    have hconsistent := (processAll_grows ht host settings (hnames.mono (by simp +contextual) :
      ProperNames root before)).2
    exact turn_eq_error_iff host hconsistent (hnames.isStem (by simp))
  rw [processAll_eq_error_iff]
  constructor
  · rintro ⟨before, source, after, results, hsplit, hbefore, herror⟩
    exact ⟨before, source, after, results, hsplit, hbefore, (hturn _ _ _ hsplit).1 herror⟩
  · rintro ⟨before, source, after, results, hsplit, hbefore, hstops⟩
    exact ⟨before, source, after, results, hsplit, hbefore, (hturn _ _ _ hsplit).2 hstops⟩

/-- A source that has its turn is delivered if it compiles and its results can be held and
encoded. -/
theorem hold_of_canHold (ht : t.Consistent) {before after : List Path} {source outDir : Path}
    {b : Bundle} (hnames : ProperNames root (before ++ source :: after))
    {results : List (Path × Status)}
    (hbefore : (processAll host t settings root before).result = .ok results)
    (hshown : (turn host (processAll host t settings root before).tree settings root
      source).result ≠ .error .unshowable)
    (hout : settings.outDir = some outDir)
    (hb : Compiles (processAll host t settings root before).tree settings.options source b)
    (hown : Misses t.cwd outDir root source source)
    (hcan : CanHold (processAll host t settings root before).tree
      (outDir.join (source.relativeTo root).parent) (source.relativeTo root).stem)
    (hencodable : Encodable host b)
    (hlater : ∀ later ∈ after, ¬SameFiles outDir root source later) :
    (OutputFiles.ofSource outDir (source.relativeTo root)).Hold
      (processAll host t settings root (before ++ source :: after)).tree b := by
  have hstem : isStem (source.relativeTo root).stem = true := hnames.isStem (by simp)
  have hfront : ProperNames root before := hnames.mono (by simp +contextual)
  -- up to the end of this turn nothing has been refused
  have hall : processAll host t settings root before =
      processAll host.showingAll t settings root before :=
    (cuts_processAll ..).eq_of_result (by simp [hbefore])
  have hsame := (cuts_processSource ..).eq_of_result hshown
  rw [hall] at hbefore hb hcan hshown hsame
  obtain ⟨hgrows, hconsistent⟩ := processAll_grows ht host settings hfront
  have hstep := processed_turn hconsistent host settings hstem
  rcases hstep.cases_of_compiles hb hout with
    ⟨-, hnull⟩ | ⟨-, ⟨hkept, -⟩ | ⟨-, written, -, hw, hresult⟩⟩
  · rw [hcan.named] at hnull
    cases hnull
  · rw [hgrows.cwd] at hkept
    exact absurd hkept ((misses_iff hstem t.cwd outDir source).1 hown)
  · obtain rfl := hw.eq_ok_iff.2 ⟨hcan, hencodable⟩
    have hturn : (turn host (processAll host.showingAll t settings root before).tree settings root
        source).result = .ok .ok := (congrArg Step.result hsame).trans hresult
    obtain ⟨rest, hrest, htree⟩ := exists_front_processAll host
      (turn host.showingAll (processAll host.showingAll t settings root before).tree settings root
        source).tree settings root after
    have hcut : (processAll host t settings root (before ++ source :: after)).tree =
        (processAll host.showingAll t settings root (before ++ source :: rest)).tree := by
      rw [(processAll_append (hall ▸ hbefore) _).1, hall, (processAll_cons_of_ok hturn after).1,
        (processAll_append hbefore _).1, (processAll_cons_of_ok hresult rest).1, ← htree]
      exact congrArg (fun x => (processAll host x settings root after).tree)
        (congrArg Step.tree hsame)
    rw [hcut]
    refine hold_processAll hout (hnames.mono ?_) hbefore hresult hw fun later hmem =>
      hlater later (hrest.subset hmem)
    intro s hs
    simp only [List.mem_append, List.mem_cons] at hs ⊢
    exact hs.imp_right fun h => h.imp_right fun hmem => hrest.subset hmem

end Run

private theorem exitCode_cases (results : List (Path × Status)) :
    exitCode results = 0 ∨ exitCode results = 1 := by
  unfold exitCode
  split
  · exact .inl rfl
  · exact .inr rfl

/-- In a run the source has its turn after these sources, and before those. -/
def Reached (host : Host) (t : FileTree) (settings : Settings) (path : Path) (before : List Path)
    (source : Path) (after : List Path) : Prop :=
  sourcesOf t path = before ++ source :: after ∧
    (t.isFile path = false → host.shows (announcement path (sourcesOf t path)) = true) ∧
    ∃ results, (processAll host t settings (rootOf t path) before).result = .ok results

/-- Where a source is reached the run is one over all sources. -/
theorem Reached.tree_runWith {host : Host} {t : FileTree} {settings : Settings} {path : Path}
    {before after : List Path} {source : Path}
    (h : Reached host t settings path before source after) :
    (runWith host t settings path).tree =
      (processAll host t settings (rootOf t path) (before ++ source :: after)).tree := by
  obtain ⟨hsplit, hannounced, -⟩ := h
  rw [← hsplit]
  unfold runWith rootOf
  rw [sourcesOf] at hsplit hannounced ⊢
  split
  · exact tree_processBatch ..
  · next hfile =>
    rw [if_neg hfile] at hsplit hannounced
    have hshown := hannounced (by simpa using hfile)
    split
    · next hnone =>
      rw [hnone] at hsplit
      simp at hsplit
    · rw [(Step.andThen_of_ok (a := ()) (by simp [Host.say, hshown]) _).1]
      exact tree_processBatch ..

/-- A run ends with an exit code of 0 or 1, or with a fault. It is that of the console if one of the
messages of the run is refused, and then only those before it are shown; otherwise it is that of a
source which stops the run at its turn. Each source that has had its turn is delivered if it
compiles and its files can be written, unless a later one has the same files. -/
theorem run_ends_only_if_stopped (host : Host) {t : FileTree} (ht : t.IsTree) {path : Path}
    (hpath : t.exists? path = true) {overrides : Settings.Overrides} {settings : Settings}
    (hload : Settings.load t overrides (if t.isDirectory path then path else path.parent) =
      .ok settings) :
    ((run host t overrides path).result = .ok 0 ∨ (run host t overrides path).result = .ok 1 ∨
      ∃ e, (run host t overrides path).result = .error e) ∧
    (∀ e, (run host t overrides path).result = .error e ↔
      (e = .unshowable ∧
        ∃ event ∈ (run host.showingAll t overrides path).events, host.shows event = false) ∨
      (∀ event ∈ (run host.showingAll t overrides path).events, host.shows event = true) ∧
        ∃ before source after, Reached host.showingAll t settings path before source after ∧
          Stops host (processAll host.showingAll t settings (rootOf t path) before).tree settings
            source (source.relativeTo (rootOf t path)) e) ∧
    (run host t overrides path).events =
      (run host.showingAll t overrides path).events.takeWhile host.shows ∧
    ∀ before source after outDir b, Reached host t settings path before source after →
      (turn host (processAll host t settings (rootOf t path) before).tree settings (rootOf t path)
        source).result ≠ .error .unshowable →
      settings.outDir = some outDir →
      Compiles (processAll host t settings (rootOf t path) before).tree settings.options source b →
      Misses t.cwd outDir (rootOf t path) source source →
      CanHold (processAll host t settings (rootOf t path) before).tree
        (outDir.join (source.relativeTo (rootOf t path)).parent)
        (source.relativeTo (rootOf t path)).stem →
      Encodable host b →
      (∀ later ∈ after, ¬SameFiles outDir (rootOf t path) source later) →
      (OutputFiles.ofSource outDir (source.relativeTo (rootOf t path))).Hold
        (run host t overrides path).tree b := by
  have hcuts := cuts_run host t overrides path
  rw [run_of_load _ hpath hload, run_of_load _ hpath hload] at hcuts ⊢
  have hresult := (runWith_eq host t settings path).2
  have hnames := properNames_sourcesOf ht hpath
  refine ⟨?_, ?_, hcuts.events_eq, ?_⟩
  · cases hrun : (runWith host t settings path).result with
    | error e => exact .inr (.inr ⟨e, rfl⟩)
    | ok code =>
        rw [hcuts.eq_of_result (by simp [hrun]), hresult] at hrun
        obtain ⟨results, -, rfl⟩ := map_eq_ok hrun
        rcases exitCode_cases results with hcode | hcode
        · exact .inl (congrArg Except.ok hcode)
        · exact .inr (.inl (congrArg Except.ok hcode))
  · intro e
    have hstopped : (runWith host.showingAll t settings path).result = .error e ↔
        ∃ before source after, Reached host.showingAll t settings path before source after ∧
          Stops host (processAll host.showingAll t settings (rootOf t path) before).tree settings
            source (source.relativeTo (rootOf t path)) e := by
      have hall : Except.map exitCode (processAll host.showingAll t settings (rootOf t path)
          (sourcesOf t path)).result = .error e ↔ _ :=
        map_eq_error_iff.trans (processAll_stopped_iff host ht.consistent hnames)
      rw [hresult, hall]
      constructor
      · rintro ⟨before, source, after, results, hsplit, hbefore, hstops⟩
        exact ⟨before, source, after, ⟨hsplit, fun _ => rfl, results, hbefore⟩, hstops⟩
      · rintro ⟨before, source, after, ⟨hsplit, -, results, hbefore⟩, hstops⟩
        exact ⟨before, source, after, results, hsplit, hbefore, hstops⟩
    rw [hcuts.result_eq_error_iff, hstopped]
  · rintro before source after outDir b hreached hshown hout hb hown hcan hencodable hlater
    rw [hreached.tree_runWith]
    obtain ⟨hsplit, -, results, hbefore⟩ := hreached
    rw [hsplit] at hnames
    exact hold_of_canHold ht.consistent hnames hbefore hshown hout hb hown hcan hencodable hlater

/-! ## A directory in the way of results -/

/-- Two sources in `p`, and a directory where the markup of the first one goes. -/
def obstructed : FileTree :=
  { cwd := ["w"]
    directories := [["w"], ["w", "p"], ["w", "o"], ["w", "o", "a.html"]]
    files := [(["w", "p", "a.cljs"], "(ns a)(html(body))".toUTF8),
      (["w", "p", "b.cljs"], "(ns b)(html(body))".toUTF8)] }

theorem isTree_obstructed : obstructed.IsTree :=
  ⟨by decide, by decide, by decide, by decide, by decide +kernel⟩

theorem load_obstructed :
    Settings.load obstructed (overridesInto ⟨.here, ["o"]⟩) ⟨.here, ["p"]⟩ =
      .ok (settingsInto ⟨.here, ["o"]⟩) :=
  load_overridesInto (by decide) (by decide) _

theorem sourcesBelow_obstructed :
    sourcesBelow obstructed ⟨.here, ["p"]⟩ =
      [⟨.here, ["p", "a.cljs"]⟩, ⟨.here, ["p", "b.cljs"]⟩] :=
  sourcesBelow_of_sorted (by decide +kernel) (by decide)

theorem run_obstructed :
    (run .ideal obstructed (overridesInto ⟨.here, ["o"]⟩) ⟨.here, ["p"]⟩).tree =
        (processAll .ideal obstructed (settingsInto ⟨.here, ["o"]⟩) ⟨.here, ["p"]⟩
          [⟨.here, ["p", "a.cljs"]⟩, ⟨.here, ["p", "b.cljs"]⟩]).tree ∧
      (run .ideal obstructed (overridesInto ⟨.here, ["o"]⟩) ⟨.here, ["p"]⟩).result =
        .error .isDirectory := by
  have hrun := run_directory .ideal isTree_obstructed.consistent (by decide) load_obstructed
  rw [Host.showingAll_ideal, sourcesBelow_obstructed] at hrun
  refine ⟨hrun.1, hrun.2.trans ?_⟩
  decide +kernel

theorem run_ends_only_if_stopped_obstructed :
    obstructed.IsTree ∧ obstructed.exists? ⟨.here, ["p"]⟩ = true ∧
      (run .ideal obstructed (overridesInto ⟨.here, ["o"]⟩) ⟨.here, ["p"]⟩).result =
        .error .isDirectory ∧
      ∃ before source after,
        Reached .ideal obstructed (settingsInto ⟨.here, ["o"]⟩) ⟨.here, ["p"]⟩ before source after ∧
        Stops .ideal (processAll .ideal obstructed (settingsInto ⟨.here, ["o"]⟩)
            (rootOf obstructed ⟨.here, ["p"]⟩) before).tree
          (settingsInto ⟨.here, ["o"]⟩) source
          (source.relativeTo (rootOf obstructed ⟨.here, ["p"]⟩)) .isDirectory := by
  have hpath : obstructed.exists? ⟨.here, ["p"]⟩ = true := by decide
  have hends := run_ends_only_if_stopped .ideal isTree_obstructed hpath load_obstructed
  have hcause := (hends.2.1 .isDirectory).1 run_obstructed.2
  rw [Host.showingAll_ideal] at hcause
  rcases hcause with ⟨hshown, -⟩ | ⟨-, hstops⟩
  · cases hshown
  · exact ⟨isTree_obstructed, hpath, run_obstructed.2, hstops⟩

/-- A console that refuses the message about the first source, which has been delivered, keeps the
second one from its turn. -/
example :
    let step := processAll { Host.ideal with shows := ConsoleEvent.isDetail } obstructed
      (settingsInto ⟨.here, ["q"]⟩) ⟨.here, ["p"]⟩
      [⟨.here, ["p", "a.cljs"]⟩, ⟨.here, ["p", "b.cljs"]⟩]
    step.result = .error .unshowable ∧ step.tree.isFile ⟨.here, ["q", "a.html"]⟩ = true ∧
      step.tree.isFile ⟨.here, ["q", "b.html"]⟩ = false := by
  decide +kernel

/-- The second source compiles and nothing is in the way of its results, but the fault of the first
one ends the run before its turn. -/
theorem second_source_not_delivered :
    (run .ideal obstructed (overridesInto ⟨.here, ["o"]⟩) ⟨.here, ["p"]⟩).result =
        .error .isDirectory ∧
      (⟨.here, ["p", "b.cljs"]⟩ : Path) ∈ sourcesBelow obstructed ⟨.here, ["p"]⟩ ∧
      CanHold obstructed ⟨.here, ["o"]⟩ "b" ∧
      ∃ b, Compiles obstructed (settingsInto ⟨.here, ["o"]⟩).options ⟨.here, ["p", "b.cljs"]⟩ b ∧
        ¬(OutputFiles.inDirectory ⟨.here, ["o"]⟩ "b").Hold
          (run .ideal obstructed (overridesInto ⟨.here, ["o"]⟩) ⟨.here, ["p"]⟩).tree b := by
  refine ⟨run_obstructed.2, by simp [sourcesBelow_obstructed], ⟨by decide, by decide, ?_⟩, ?_⟩
  · rintro place (rfl | rfl) <;> decide +kernel
  · rw [run_obstructed.1]
    have hmissing : (processAll .ideal obstructed (settingsInto ⟨.here, ["o"]⟩) ⟨.here, ["p"]⟩
        [⟨.here, ["p", "a.cljs"]⟩, ⟨.here, ["p", "b.cljs"]⟩]).tree.read
          (OutputFiles.inDirectory ⟨.here, ["o"]⟩ "b").markup = .error .fileNotFound := by
      decide +kernel
    have hok : (Page.compileSource .namespace "(ns b)(html(body))"
        (settingsInto ⟨.here, ["o"]⟩).options).isOk = true := by
      decide +kernel
    obtain ⟨b, hcompile⟩ := exists_of_isOk hok
    refine ⟨b, ⟨.namespace, _, by decide +kernel, by decide +kernel, hcompile⟩, ?_⟩
    rintro ⟨hmarkup, -⟩
    rw [hmissing] at hmarkup
    cases hmarkup

end Compilation

end PageForms
