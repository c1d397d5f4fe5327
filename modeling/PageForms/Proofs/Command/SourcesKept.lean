import PageForms.Proofs.Command.Batch

/-!
# What becomes of the sources

A source of a run keeps its content unless the results of another source go to its place, and then
it has one of those results, or is empty if that one has no encoding. Its own results never go
there, and none go there if the output directory is apart from the sources.
-/

namespace PageForms.Compilation

/-- After a run the place of this source has what writing a result of another source, compiled at
its turn, leaves there. -/
def Replaced (host : Host) (t : FileTree) (overrides : Settings.Overrides) (path source : Path) :
    Prop :=
  ∃ settings outDir before other after b,
    Settings.load t overrides path = .ok settings ∧ settings.outDir = some outDir ∧
    sourcesBelow t path = before ++ other :: after ∧ other ≠ source ∧
    Compiles (processAll host.showingAll t settings path before).tree settings.options other b ∧
    ((OutputFiles.ofSource outDir (other.relativeTo path)).markup.resolve t.cwd =
        source.resolve t.cwd ∧
      (run host t overrides path).tree.read source = .ok (host.bytes b.markup) ∨
    (OutputFiles.ofSource outDir (other.relativeTo path)).code.resolve t.cwd =
        source.resolve t.cwd ∧
      (run host t overrides path).tree.read source = .ok (host.bytes b.code))

private theorem read_run_or_replaced (host : Host) {t : FileTree} (ht : t.IsTree)
    {path source : Path} (hpath : t.isDirectory path = true) {bytes : ByteArray}
    (hread : t.read source = .ok bytes) (overrides : Settings.Overrides) :
    (run host t overrides path).tree.read source = .ok bytes ∨
      Replaced host t overrides path source := by
  cases hload : Settings.load t overrides path with
  | error e =>
      left
      rwa [tree_run_of_load_error host hpath hload]
  | ok settings =>
      unfold Replaced
      obtain ⟨front, ⟨rest, hfront⟩, htree⟩ := exists_front_run host ht.consistent hpath hload
      rw [htree]
      have hall := properNames_sourcesBelow ht hpath
      have hnames : ProperNames path front := hall.mono (by simp +contextual [← hfront])
      obtain ⟨hgrows, hconsistent⟩ := processAll_grows ht.consistent host settings hnames
      -- the path still leads to the place, so what counts is the content there
      have hfound : ∀ content,
          (processAll host.showingAll t settings path front).tree.contentAt?
            (source.resolve t.cwd) = some content →
          (processAll host.showingAll t settings path front).tree.read source = .ok content := by
        intro content hcontent
        rw [FileTree.read_eq_ok_iff hconsistent, hgrows.cwd]
        exact ⟨hgrows.locate ((FileTree.read_eq_ok_iff ht.consistent).1 hread).1, hcontent⟩
      rcases processAll_content ht.consistent host settings hnames (source.resolve t.cwd) with
        hsame | ⟨before, other, after, rfl, outDir, b, hout, hb, hown, hstored⟩
      · exact .inl (hgrows.read ht.consistent hconsistent hread hsame)
      · refine .inr ⟨settings, outDir, before, other, after ++ rest, b, hload, hout,
          by simp [← hfront], ?_, hb, ?_⟩
        · rintro rfl
          exact hown (hstored.imp And.left And.left)
        · have hstem := hnames.isStem (by simp : other ∈ before ++ other :: after)
          rw [OutputFiles.ofSource, OutputFiles.resolve_markup hstem,
            OutputFiles.resolve_code hstem]
          rcases hstored with ⟨hplace, hcontent⟩ | ⟨hplace, hcontent⟩
          · exact .inl ⟨hplace.symm, hfound _ hcontent⟩
          · exact .inr ⟨hplace.symm, hfound _ hcontent⟩

private theorem Replaced.not_apart {host : Host} {t : FileTree} (ht : t.IsTree) {path source : Path}
    {overrides : Settings.Overrides} (h : Replaced host t overrides path source)
    (hpath : t.isDirectory path = true) (hsource : source ∈ sourcesBelow t path)
    {settings : Settings} (hload : Settings.load t overrides path = .ok settings) {outDir : Path}
    (hout : settings.outDir = some outDir) :
    ¬Apart (outDir.resolve t.cwd) (path.resolve t.cwd) := by
  obtain ⟨_, _, before, other, after, b, hload', hout', hsplit, -, -, hplace⟩ := h
  cases hload.symm.trans hload'
  cases hout.symm.trans hout'
  intro hapart
  have hmiss := misses_of_apart ht hpath hapart (by simp [hsplit] : other ∈ _) hsource
  rcases hplace with ⟨hplace, -⟩ | ⟨hplace, -⟩
  · exact hmiss.1 hplace
  · exact hmiss.2 hplace

/-- After a run for a directory every source below it has the content that it had or what writing a
result of another source leaves, and always the first if the output directory is apart from the
sources. -/
theorem source_kept_or_replaced (host : Host) {t : FileTree} (ht : t.IsTree) {path source : Path}
    (hpath : t.isDirectory path = true) (hsource : source ∈ sourcesBelow t path)
    (overrides : Settings.Overrides) :
    ∃ bytes, t.read source = .ok bytes ∧
      ((run host t overrides path).tree.read source = .ok bytes ∨
        Replaced host t overrides path source) ∧
      ∀ settings outDir, Settings.load t overrides path = .ok settings →
        settings.outDir = some outDir → Apart (outDir.resolve t.cwd) (path.resolve t.cwd) →
        (run host t overrides path).tree.read source = .ok bytes := by
  obtain ⟨⟨bytes, hread⟩, -⟩ := exists_of_mem_sourcesBelow ht hpath hsource
  have hcases := read_run_or_replaced host ht hpath hread overrides
  refine ⟨bytes, hread, hcases, ?_⟩
  intro settings outDir hload hout hapart
  exact hcases.resolve_right fun h => h.not_apart ht hpath hsource hload hout hapart

/-! ## An output directory among the sources -/

def nestedPages : FileTree :=
  { cwd := ["w"]
    directories := [["w"], ["w", "p"], ["w", "p", "a"]]
    files := [(["w", "p", "a", "b.html"], "<script type=\"text/hlisp\">(ns c)</script>".toUTF8),
      (["w", "p", "b.cljs"], "(ns b)(html(body))".toUTF8)] }

private theorem isTree_nestedPages : nestedPages.IsTree :=
  ⟨by decide, by decide, by decide, by decide, by decide +kernel⟩

private theorem sourcesBelow_nestedPages :
    sourcesBelow nestedPages ⟨.here, ["p"]⟩ =
      [⟨.here, ["p", "a", "b.html"]⟩, ⟨.here, ["p", "b.cljs"]⟩] :=
  sourcesBelow_of_sorted (by decide +kernel) (by decide)

theorem source_kept_or_replaced_nested :
    nestedPages.IsTree ∧ nestedPages.isDirectory ⟨.here, ["p"]⟩ = true ∧
      (⟨.here, ["p", "b.cljs"]⟩ : Path) ∈ sourcesBelow nestedPages ⟨.here, ["p"]⟩ ∧
      ∃ bytes, nestedPages.read ⟨.here, ["p", "b.cljs"]⟩ = .ok bytes ∧
        ((run .ideal nestedPages (overridesInto ⟨.here, ["p", "a"]⟩) ⟨.here, ["p"]⟩).tree.read
            ⟨.here, ["p", "b.cljs"]⟩ = .ok bytes ∨
          Replaced .ideal nestedPages (overridesInto ⟨.here, ["p", "a"]⟩) ⟨.here, ["p"]⟩
            ⟨.here, ["p", "b.cljs"]⟩) := by
  have hmem : (⟨.here, ["p", "b.cljs"]⟩ : Path) ∈ sourcesBelow nestedPages ⟨.here, ["p"]⟩ := by
    simp [sourcesBelow_nestedPages]
  obtain ⟨bytes, hread, hcases, -⟩ := source_kept_or_replaced .ideal isTree_nestedPages
    (by decide) hmem (overridesInto ⟨.here, ["p", "a"]⟩)
  exact ⟨isTree_nestedPages, by decide, hmem, bytes, hread, hcases⟩

/-- The markup of `p/b.cljs` goes to the place of the page `p/a/b.html`. -/
theorem page_replaced_by_nested_output :
    nestedPages.IsTree ∧ nestedPages.isDirectory ⟨.here, ["p"]⟩ = true ∧
      (⟨.here, ["p", "a", "b.html"]⟩ : Path) ∈ sourcesBelow nestedPages ⟨.here, ["p"]⟩ ∧
      (run .ideal nestedPages (overridesInto ⟨.here, ["p", "a"]⟩) ⟨.here, ["p"]⟩).tree.read
          ⟨.here, ["p", "a", "b.html"]⟩ ≠ nestedPages.read ⟨.here, ["p", "a", "b.html"]⟩ := by
  have hpath : nestedPages.isDirectory ⟨.here, ["p"]⟩ = true := by decide
  refine ⟨isTree_nestedPages, hpath, by simp [sourcesBelow_nestedPages], ?_⟩
  have hrun := (run_directory .ideal isTree_nestedPages.consistent hpath
    (load_overridesInto (by decide) (by decide) ⟨.here, ["p", "a"]⟩)).1
  rw [Host.showingAll_ideal] at hrun
  rw [hrun, sourcesBelow_nestedPages]
  decide +kernel

/-- Where the markup has no encoding, the page is left empty. -/
example :
    (processAll { Host.ideal with encodes := fun _ => false } nestedPages
      (settingsInto ⟨.here, ["p", "a"]⟩) ⟨.here, ["p"]⟩ [⟨.here, ["p", "b.cljs"]⟩]).tree.read
        ⟨.here, ["p", "a", "b.html"]⟩ = .ok .empty := by
  decide +kernel

end PageForms.Compilation
