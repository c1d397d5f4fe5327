import PageForms.Proofs.Command.Stops
import PageForms.Proofs.Command.Together

/-!
# What a run can change

Before a run it can be told which files its results go to. However the run ends, every other file
keeps its content, and no other file is created. A source that is not written changes nothing.
-/

namespace PageForms.Compilation

/-! ## One source -/

/-- Results are written only for a source that ends well or ends the run. -/
theorem tree_deliver (host : Host) (t : FileTree) (outDir source relative : Path) (b : Bundle) :
    (deliver host t outDir source relative b).tree = t ∨
      (deliver host t outDir source relative b).result = .ok .ok ∨
      ∃ e, (deliver host t outDir source relative b).result = .error e := by
  unfold deliver
  split
  · exact .inl rfl
  · exact .inl rfl
  · split
    · exact .inr (.inr ⟨_, rfl⟩)
    · unfold Host.say
      simp only
      split
      · exact .inr (.inl rfl)
      · exact .inr (.inr ⟨_, rfl⟩)

private theorem tree_processSource (host : Host) (t : FileTree) (settings : Settings)
    (source relative : Path) :
    (processSource host t settings source relative).tree = t ∨
      settings.outDir ≠ none ∧
        ((processSource host t settings source relative).result = .ok .ok ∨
          ∃ e, (processSource host t settings source relative).result = .error e) := by
  unfold processSource Step.next conclude
  rw [tree_compileSource]
  split
  · split <;> exact .inl rfl
  · exact .inl rfl
  · next b _ =>
    split
    · exact .inl rfl
    · next outDir hout =>
      refine (tree_deliver host t outDir source relative b).imp_right fun hresult => ⟨?_, hresult⟩
      rw [hout]
      exact Option.some_ne_none outDir

/-! ## A whole run -/

def outputPlaces (cwd : Place) (outDir root : Path) (sources : List Path) : List Place :=
  (sources.filter fun source => (SourceKind.ofName? source.text).isSome).flatMap fun source =>
    (OutputFiles.ofSource outDir (source.relativeTo root)).places cwd

/-- The places that a run may write to. Without settings or an output directory there are none. -/
def writablePlaces (t : FileTree) (overrides : Settings.Overrides) (path : Path) : List Place :=
  match Settings.load t overrides (if t.isDirectory path then path else path.parent) with
  | .error _ => []
  | .ok settings =>
    settings.outDir.elim [] fun outDir =>
      outputPlaces t.cwd outDir (rootOf t path) (sourcesOf t path)

private theorem StoredAt.mem_outputPlaces {host : Host} {cwd : Place} {t : FileTree}
    {settings : Settings} {source root : Path} {place : Place} {content : Option ByteArray}
    (h : StoredAt host cwd t settings source (source.relativeTo root) place content)
    (hstem : isStem (source.relativeTo root).stem = true) {sources : List Path}
    (hsource : source ∈ sources) :
    ∃ outDir, settings.outDir = some outDir ∧ place ∈ outputPlaces cwd outDir root sources := by
  obtain ⟨outDir, b, hout, ⟨kind, -, hkind, -⟩, -, hplace⟩ := h
  refine ⟨outDir, hout, List.mem_flatMap.2 ⟨source, ?_, ?_⟩⟩
  · exact List.mem_filter.2 ⟨hsource, by rw [hkind]; rfl⟩
  · rw [OutputFiles.places, OutputFiles.ofSource, OutputFiles.resolve_markup hstem,
      OutputFiles.resolve_code hstem, List.mem_pair]
    exact hplace.imp And.left And.left

private theorem sameOutside_runWith (host : Host) {t : FileTree} (ht : t.IsTree)
    (settings : Settings) {path : Path} (hpath : t.exists? path = true) :
    t.SameOutside (runWith host t settings path).tree
      (settings.outDir.elim [] fun outDir =>
        outputPlaces t.cwd outDir (rootOf t path) (sourcesOf t path)) := by
  intro place hplace
  obtain ⟨front, hfront, htree⟩ := exists_front_runWith host t settings path
  rw [htree]
  have hnames := (properNames_sourcesOf ht hpath).mono fun _ hmem => hfront.subset hmem
  rcases processAll_content ht.consistent host settings hnames place with
    hsame | ⟨before, source, after, hsplit, hstored⟩
  · exact hsame
  · have hsource : source ∈ front := by simp [hsplit]
    obtain ⟨outDir, hout, hmem⟩ := hstored.mem_outputPlaces (hnames.isStem hsource)
      (hfront.subset hsource)
    rw [hout] at hplace
    exact absurd hmem hplace

/-- However a run ends, it changes and creates no file but those of its results; and a source that
is reported or skipped, or for which there is no output directory, leaves the tree as it is. -/
theorem run_writes_outputs_only (host : Host) {t : FileTree} (ht : t.IsTree)
    (overrides : Settings.Overrides) (path : Path) :
    t.SameOutside (run host t overrides path).tree (writablePlaces t overrides path) ∧
    ∀ (u : FileTree) (settings : Settings) (source relative : Path),
      ((processSource host u settings source relative).result = .ok .error ∨
        (processSource host u settings source relative).result = .ok .skipped ∨
        settings.outDir = none) →
      (processSource host u settings source relative).tree = u := by
  constructor
  · unfold run writablePlaces
    split
    · next hpath =>
      cases Settings.load t overrides (if t.isDirectory path then path else path.parent) with
      | ok settings => exact sameOutside_runWith host ht settings hpath
      | error e =>
          simp only
          split <;> exact fun _ _ => rfl
    · exact fun _ _ => rfl
  · intro u settings source relative hunwritten
    rcases tree_processSource host u settings source relative with
      htree | ⟨hout, hresult | ⟨e, hresult⟩⟩
    · exact htree
    · rw [hresult] at hunwritten
      simp [hout] at hunwritten
    · rw [hresult] at hunwritten
      simp [hout] at hunwritten

private theorem writablePlaces_obstructed :
    writablePlaces obstructed (overridesInto ⟨.here, ["o"]⟩) ⟨.here, ["p"]⟩ =
      [["w", "o", "a.html"], ["w", "o", "a.cljs"], ["w", "o", "b.html"], ["w", "o", "b.cljs"]] := by
  have hfile : obstructed.isFile ⟨.here, ["p"]⟩ = false := by decide
  have hdir : obstructed.isDirectory ⟨.here, ["p"]⟩ = true := by decide
  rw [writablePlaces, hdir, if_pos rfl, load_obstructed, rootOf, sourcesOf, hfile,
    sourcesBelow_obstructed]
  decide +kernel

/-- A run that a fault ends, and a source whose results would replace it. -/
theorem run_writes_outputs_only_obstructed :
    obstructed.IsTree ∧
      ((run .ideal obstructed (overridesInto ⟨.here, ["o"]⟩) ⟨.here, ["p"]⟩).result =
          .error .isDirectory ∧
        (run .ideal obstructed (overridesInto ⟨.here, ["o"]⟩) ⟨.here, ["p"]⟩).tree.contentAt?
            ["w", "p", "a.cljs"] =
          obstructed.contentAt? ["w", "p", "a.cljs"]) ∧
      (processSource .ideal obstructed (settingsInto ⟨.here, ["p"]⟩) ⟨.here, ["p", "a.cljs"]⟩
          ⟨.here, ["a.cljs"]⟩).result = .ok .error ∧
      (processSource .ideal obstructed (settingsInto ⟨.here, ["p"]⟩) ⟨.here, ["p", "a.cljs"]⟩
          ⟨.here, ["a.cljs"]⟩).tree = obstructed := by
  obtain ⟨hrun, hsource⟩ :=
    run_writes_outputs_only .ideal isTree_obstructed (overridesInto ⟨.here, ["o"]⟩)
      ⟨.here, ["p"]⟩
  have hresult : (processSource .ideal obstructed (settingsInto ⟨.here, ["p"]⟩)
      ⟨.here, ["p", "a.cljs"]⟩ ⟨.here, ["a.cljs"]⟩).result = .ok .error := by
    decide +kernel
  refine ⟨isTree_obstructed, ⟨run_obstructed.2, hrun _ ?_⟩, hresult, hsource _ _ _ _ (.inl hresult)⟩
  rw [writablePlaces_obstructed]
  decide

end PageForms.Compilation
