import PageForms.Proofs.Command.Batch
import PageForms.Proofs.Lists

/-!
# What a successful run delivers

After a run that ends well, the files for a source hold the results of a source: of the last one
whose results go to the same files. That one was compiled from its content before the run if no
earlier results have gone to its place, so always if the output directory is apart from the sources.
-/

namespace PageForms.Compilation

/-- If a run for a directory ends well, then the files for a source hold the results of the last
source that has the same files, so its own if no other source of its directory has its stem. -/
theorem delivered_by_last (host : Host) {t : FileTree} (ht : t.IsTree) {path source : Path}
    (hpath : t.isDirectory path = true) {overrides : Settings.Overrides} {settings : Settings}
    (hload : Settings.load t overrides path = .ok settings) {outDir : Path}
    (hout : settings.outDir = some outDir) (hrun : (run host t overrides path).result = .ok 0)
    (hsource : source ∈ sourcesBelow t path) :
    ∃ before last after b, sourcesBelow t path = before ++ last :: after ∧
      SameFiles outDir path source last ∧ (∀ later ∈ after, ¬SameFiles outDir path source later) ∧
      Compiles (processAll host.showingAll t settings path before).tree settings.options last b ∧
      ((∀ other ∈ before, Misses t.cwd outDir path other last) →
        Compiles t settings.options last b) ∧
      (Apart (outDir.resolve t.cwd) (path.resolve t.cwd) → Compiles t settings.options last b) ∧
      ((∀ other ∈ sourcesBelow t path,
          (source.relativeTo path).parent = (other.relativeTo path).parent →
          (source.relativeTo path).stem = (other.relativeTo path).stem → source = other) →
        last = source) ∧
      (OutputFiles.ofSource outDir (source.relativeTo path)).Hold
        (run host t overrides path).tree b := by
  have hproper := properNames_sourcesBelow ht hpath
  have hwhole : run host t overrides path = run host.showingAll t overrides path :=
    (cuts_run host t overrides path).eq_of_result (by simp [hrun])
  obtain ⟨htree, hresult⟩ := run_directory host ht.consistent hpath hload
  rw [hwhole, hresult] at hrun
  rw [hwhole, htree]
  obtain ⟨results, hresults, hcode⟩ := map_eq_ok hrun
  obtain ⟨before, last, after, hsplit, hlast, hafter⟩ :=
    exists_last (SameFiles outDir path source) hsource rfl
  have hmem : last ∈ sourcesBelow t path := by simp [hsplit]
  have hnames := hproper
  rw [hsplit] at hresults hnames
  have hbefore : ProperNames path before := hnames.mono (by simp +contextual)
  obtain ⟨hgrows, hconsistent⟩ := processAll_grows ht.consistent host settings hbefore
  obtain ⟨earlier, status, hearlier, hstatus, hturn⟩ := exists_status_of_ok hresults
  have hok : status = .ok := status_of_exitCode hcode hstatus
  have hstem : isStem (last.relativeTo path).stem = true := hnames.isStem (by simp)
  have hstep := processed_turn hconsistent host settings hstem
  rw [hturn, hok] at hstep
  obtain ⟨b, files, hb, hw⟩ := hstep.written_of_ok hout
  have hkept : (∀ other ∈ before, Misses t.cwd outDir path other last) →
      Compiles t settings.options last b := by
    intro hmiss
    obtain ⟨bytes, hread⟩ := (exists_of_mem_sourcesBelow ht hpath hmem).1
    have hsame := read_of_misses host ht.consistent hout hbefore hread hmiss
    rwa [← compiles_congr (hsame.trans hread.symm)]
  refine ⟨before, last, after, b, hsplit, hlast, hafter, hb, hkept, ?_, ?_, ?_⟩
  · intro hapart
    exact hkept fun other hother => misses_of_apart ht hpath hapart (by simp [hsplit, hother]) hmem
  · intro hsole
    obtain ⟨hparent, hstem⟩ := hlast.parent_and_stem hproper hsource hmem
    exact (hsole last hmem hparent hstem).symm
  · rw [hsplit, hlast]
    exact hold_processAll hout hnames hearlier hturn hw
      fun later hlater hsame => hafter later hlater (hlast.trans hsame)

/-! ## Two sources of one name -/

/-- A namespace source and a page of the same name in `p`. -/
def twinPages : FileTree :=
  { cwd := ["w"]
    directories := [["w"], ["w", "p"]]
    files := [(["w", "p", "a.cljs"], "(ns b)(html(body))".toUTF8),
      (["w", "p", "a.html"], "<script type=\"text/hlisp\">(ns c)</script>".toUTF8)] }

private theorem isTree_twinPages : twinPages.IsTree :=
  ⟨by decide, by decide, by decide, by decide, by decide +kernel⟩

private theorem load_twinPages :
    Settings.load twinPages (overridesInto ⟨.here, ["o"]⟩) ⟨.here, ["p"]⟩ =
      .ok (settingsInto ⟨.here, ["o"]⟩) :=
  load_overridesInto (by decide) (by decide) _

private theorem sourcesBelow_twinPages :
    sourcesBelow twinPages ⟨.here, ["p"]⟩ =
      [⟨.here, ["p", "a.cljs"]⟩, ⟨.here, ["p", "a.html"]⟩] :=
  sourcesBelow_of_sorted (by decide +kernel) (by decide)

private theorem run_twinPages :
    (run .ideal twinPages (overridesInto ⟨.here, ["o"]⟩) ⟨.here, ["p"]⟩).tree =
        (processAll .ideal twinPages (settingsInto ⟨.here, ["o"]⟩) ⟨.here, ["p"]⟩
          [⟨.here, ["p", "a.cljs"]⟩, ⟨.here, ["p", "a.html"]⟩]).tree ∧
      (run .ideal twinPages (overridesInto ⟨.here, ["o"]⟩) ⟨.here, ["p"]⟩).result = .ok 0 := by
  have hrun := run_directory .ideal isTree_twinPages.consistent (by decide) load_twinPages
  rw [Host.showingAll_ideal, sourcesBelow_twinPages] at hrun
  refine ⟨hrun.1, hrun.2.trans ?_⟩
  decide +kernel

theorem delivered_by_last_twin :
    twinPages.IsTree ∧ twinPages.isDirectory ⟨.here, ["p"]⟩ = true ∧
      (run .ideal twinPages (overridesInto ⟨.here, ["o"]⟩) ⟨.here, ["p"]⟩).result = .ok 0 ∧
      (⟨.here, ["p", "a.cljs"]⟩ : Path) ∈ sourcesBelow twinPages ⟨.here, ["p"]⟩ ∧
      ∃ b, (OutputFiles.ofSource ⟨.here, ["o"]⟩ ⟨.here, ["a.cljs"]⟩).Hold
        (run .ideal twinPages (overridesInto ⟨.here, ["o"]⟩) ⟨.here, ["p"]⟩).tree b := by
  have hmem : (⟨.here, ["p", "a.cljs"]⟩ : Path) ∈ sourcesBelow twinPages ⟨.here, ["p"]⟩ := by
    simp [sourcesBelow_twinPages]
  obtain ⟨_, _, _, b, -, -, -, -, -, -, -, hold⟩ := delivered_by_last .ideal isTree_twinPages
    (by decide) load_twinPages rfl run_twinPages.2 hmem
  exact ⟨isTree_twinPages, by decide, run_twinPages.2, hmem, b, hold⟩

/-- The run ends well, but the files for the namespace source hold the results of the page. -/
theorem twin_not_delivered :
    (run .ideal twinPages (overridesInto ⟨.here, ["o"]⟩) ⟨.here, ["p"]⟩).result = .ok 0 ∧
      (⟨.here, ["p", "a.cljs"]⟩ : Path) ∈ sourcesBelow twinPages ⟨.here, ["p"]⟩ ∧
      ∃ b, Compiles twinPages (settingsInto ⟨.here, ["o"]⟩).options ⟨.here, ["p", "a.cljs"]⟩ b ∧
        ¬(OutputFiles.ofSource ⟨.here, ["o"]⟩ ⟨.here, ["a.cljs"]⟩).Hold
          (run .ideal twinPages (overridesInto ⟨.here, ["o"]⟩) ⟨.here, ["p"]⟩).tree b := by
  refine ⟨run_twinPages.2, by simp [sourcesBelow_twinPages], ?_⟩
  rw [run_twinPages.1]
  have hdiffers : (processAll .ideal twinPages (settingsInto ⟨.here, ["o"]⟩) ⟨.here, ["p"]⟩
      [⟨.here, ["p", "a.cljs"]⟩, ⟨.here, ["p", "a.html"]⟩]).tree.read ⟨.here, ["o", "a.html"]⟩ ≠
        (Page.compileSource .namespace "(ns b)(html(body))"
          (settingsInto ⟨.here, ["o"]⟩).options).map fun b => b.markup.toUTF8 := by
    decide +kernel
  have hok : (Page.compileSource .namespace "(ns b)(html(body))"
      (settingsInto ⟨.here, ["o"]⟩).options).isOk = true := by
    decide +kernel
  obtain ⟨b, hcompile⟩ := exists_of_isOk hok
  refine ⟨b, ⟨.namespace, _, by decide +kernel, by decide +kernel, hcompile⟩, ?_⟩
  rintro ⟨hmarkup, -⟩
  rw [hcompile] at hdiffers
  exact hdiffers hmarkup

end PageForms.Compilation
