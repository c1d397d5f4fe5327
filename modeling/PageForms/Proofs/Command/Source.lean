import PageForms.Proofs.Command.Output
import PageForms.Proofs.Command.Refusals

/-!
# Processing one source

`Processed` lists everything that processing a source can do to a tree and how it can end on a
console that shows everything: the source is reported, skipped, shown, kept or delivered, or it ends
the run.
-/

namespace PageForms.Compilation

/-! ## Compiling a source -/

/-- The source is read and compiled to these results. -/
def Compiles (t : FileTree) (options : CompileOptions) (source : Path) (b : Bundle) : Prop :=
  ∃ kind text, SourceKind.ofName? source.text = some kind ∧ t.readText source = .ok text ∧
    Page.compileSource kind text options = .ok b

/-- The source is of a known kind but cannot be read or compiled. -/
def Fails (t : FileTree) (options : CompileOptions) (source : Path) (e : Fault) : Prop :=
  ∃ kind, SourceKind.ofName? source.text = some kind ∧
    (t.readText source = .error e ∨
      ∃ text, t.readText source = .ok text ∧ Page.compileSource kind text options = .error e)

section Source

variable {host : Host} {t : FileTree} {options : CompileOptions} {source : Path} {b : Bundle}
  {e : Fault}

private theorem compileSource_of_ofName? {kind : SourceKind}
    (h : SourceKind.ofName? source.text = some kind) :
    (compileSource host.showingAll t options source).result =
      some <$> (t.readText source >>= fun text => Page.compileSource kind text options) := by
  unfold compileSource
  simp only [h, Host.say_showingAll]
  cases hread : t.readText source with
  | error e => rfl
  | ok text =>
      rw [ok_bind, ok_bind, Page.compileSource]
      cases Page.planSource kind text <;> rfl

private theorem compileSource_of_ofName?_eq_none (h : SourceKind.ofName? source.text = none) :
    (compileSource host.showingAll t options source).result = .ok none := by
  unfold compileSource
  simp only [h, Host.say_showingAll]

private theorem compiles_iff (host : Host) : Compiles t options source b ↔
    (compileSource host.showingAll t options source).result = .ok (some b) := by
  constructor
  · rintro ⟨kind, text, hkind, hread, hcompile⟩
    rw [compileSource_of_ofName? hkind, hread, ok_bind, hcompile]
    rfl
  · intro h
    cases hkind : SourceKind.ofName? source.text with
    | none =>
        rw [compileSource_of_ofName?_eq_none hkind] at h
        cases h
    | some kind =>
        rw [compileSource_of_ofName? hkind] at h
        obtain ⟨b', hcompile, hb⟩ := map_eq_ok h
        obtain ⟨text, hread, hcompile⟩ := bind_eq_ok hcompile
        cases hb
        exact ⟨kind, text, hkind, hread, hcompile⟩

private theorem fails_iff (host : Host) : Fails t options source e ↔
    (compileSource host.showingAll t options source).result = .error e := by
  cases hkind : SourceKind.ofName? source.text with
  | none => simp [Fails, hkind, compileSource_of_ofName?_eq_none hkind]
  | some kind =>
      rw [compileSource_of_ofName? hkind, map_eq_error_iff]
      cases hread : t.readText source with
      | error e' =>
          rw [show (Except.error e' >>= _ : Except Fault Bundle) = .error e' from rfl]
          simp [Fails, hkind, hread]
      | ok text =>
          rw [ok_bind]
          simp [Fails, hkind, hread]

private theorem ofName?_of_compileSource
    (h : (compileSource host.showingAll t options source).result = .ok none) :
    SourceKind.ofName? source.text = none := by
  cases hkind : SourceKind.ofName? source.text with
  | none => rfl
  | some kind =>
      rw [compileSource_of_ofName? hkind] at h
      obtain ⟨b, -, hb⟩ := map_eq_ok h
      cases hb

theorem compiles_congr {t' : FileTree} (h : t'.read source = t.read source) :
    Compiles t' options source b ↔ Compiles t options source b := by
  rw [Compiles, Compiles, FileTree.readText, FileTree.readText, h]

theorem Compiles.unique {b' : Bundle} (h : Compiles t options source b)
    (h' : Compiles t options source b') : b = b' := by
  rw [compiles_iff .ideal] at h h'
  rw [h] at h'
  cases h'
  rfl

theorem Compiles.hasNull (h : Compiles t options source b) : source.hasNull = false := by
  obtain ⟨kind, text, -, hread, -⟩ := h
  obtain ⟨bytes, hbytes, -⟩ := bind_eq_ok hread
  obtain ⟨place, hplace, -⟩ := bind_eq_ok hbytes
  exact (FileTree.locate_eq_ok hplace).2

theorem Fails.unique {e' : Fault} (h : Fails t options source e) (h' : Fails t options source e') :
    e = e' := by
  rw [fails_iff .ideal] at h h'
  rw [h] at h'
  cases h'
  rfl

theorem Compiles.not_fails (h : Compiles t options source b) : ¬Fails t options source e := by
  rw [compiles_iff .ideal] at h
  rw [fails_iff .ideal, h]
  exact nofun

end Source

/-! ## Everything that can happen -/

/-- Everything that processing a source can do on a console that shows everything. -/
inductive Processed (host : Host) (t : FileTree) (settings : Settings) (source relative : Path) :
    FileTree → Except Fault Status → Prop
  | reported {e : Fault} (h : Fails t settings.options source e) (he : isReported e = true) :
      Processed host t settings source relative t (.ok .error)
  | stopped {e : Fault} (h : Fails t settings.options source e) (he : isReported e = false) :
      Processed host t settings source relative t (.error e)
  | skipped (h : SourceKind.ofName? source.text = none) :
      Processed host t settings source relative t (.ok .skipped)
  | shown {b : Bundle} (h : Compiles t settings.options source b) (hout : settings.outDir = none) :
      Processed host t settings source relative t (.ok .ok)
  | unplaced {b : Bundle} {outDir : Path} (h : Compiles t settings.options source b)
      (hout : settings.outDir = some outDir)
      (hnull : (outDir.join relative.parent).hasNull = true) :
      Processed host t settings source relative t (.error .nullInPath)
  | kept {b : Bundle} {outDir : Path} (h : Compiles t settings.options source b)
      (hout : settings.outDir = some outDir)
      (hnull : (outDir.join relative.parent).hasNull = false)
      (hown : (Target.ofSource t.cwd outDir relative).Includes (source.resolve t.cwd)) :
      Processed host t settings source relative t (.ok .error)
  | delivered {b : Bundle} {outDir : Path} {t' : FileTree} {r : Except Fault OutputFiles}
      (h : Compiles t settings.options source b) (hout : settings.outDir = some outDir)
      (hnull : (outDir.join relative.parent).hasNull = false)
      (hown : ¬(Target.ofSource t.cwd outDir relative).Includes (source.resolve t.cwd))
      (hwrite : b.writeOn host (outDir.join relative.parent) relative.stem t = (t', r))
      (hw : Written host b t (outDir.join relative.parent) relative.stem t' r) :
      Processed host t settings source relative t' (r.map fun _ => .ok)

/-- The results of a source go to its own place exactly if the target includes it; only null
characters keep this from being found out. -/
theorem includes_cases {relative : Path} (hstem : isStem relative.stem = true) (outDir : Path)
    (cwd : Place) {source : Path} (hsource : source.hasNull = false) :
    (OutputFiles.ofSource outDir relative).includes cwd source = .error .nullInPath ∧
      (outDir.join relative.parent).hasNull = true ∨
    (outDir.join relative.parent).hasNull = false ∧
      ∃ own, (OutputFiles.ofSource outDir relative).includes cwd source = .ok own ∧
        (own = true ↔ (Target.ofSource cwd outDir relative).Includes (source.resolve cwd)) := by
  unfold OutputFiles.includes Path.place?
  rw [OutputFiles.ofSource, OutputFiles.hasNull_markup hstem, OutputFiles.hasNull_code hstem,
    hsource]
  cases hdirectory : (outDir.join relative.parent).hasNull with
  | true => exact .inl ⟨rfl, rfl⟩
  | false =>
      refine .inr ⟨rfl, _, rfl, ?_⟩
      rw [Bool.or_eq_true, beq_iff_eq, beq_iff_eq, OutputFiles.resolve_markup hstem,
        OutputFiles.resolve_code hstem]
      exact or_congr eq_comm eq_comm

private theorem processed_deliver {t : FileTree} (ht : t.Consistent) {settings : Settings}
    {source relative outDir : Path} (hstem : isStem relative.stem = true) {b : Bundle}
    (hb : Compiles t settings.options source b) (hout : settings.outDir = some outDir)
    (host : Host) :
    Processed host t settings source relative
      (deliver host.showingAll t outDir source relative b).tree
      (deliver host.showingAll t outDir source relative b).result := by
  unfold deliver
  rcases includes_cases hstem outDir t.cwd hb.hasNull with
    ⟨hincludes, hnull⟩ | ⟨hnull, own, hincludes, hown⟩
  · simp only [hincludes]
    exact .unplaced hb hout hnull
  · cases own with
    | true =>
        simp only [hincludes, Host.say_showingAll]
        exact .kept hb hout hnull (hown.1 rfl)
    | false =>
        have hw := written_write ht hstem host b (outDir.join relative.parent)
        have hown' := fun h => Bool.false_ne_true (hown.2 h)
        rcases hwrite : b.writeOn host (outDir.join relative.parent) relative.stem t with ⟨t', r⟩
        rw [hwrite] at hw
        have hstep := Processed.delivered hb hout hnull hown' hwrite hw
        simp only [hincludes, writeOn_showingAll, hwrite, Host.say_showingAll]
        cases r <;> exact hstep

theorem processed_processSource {t : FileTree} (ht : t.Consistent) (host : Host)
    (settings : Settings) (source : Path) {relative : Path} (hstem : isStem relative.stem = true) :
    Processed host t settings source relative
      (processSource host.showingAll t settings source relative).tree
      (processSource host.showingAll t settings source relative).result := by
  unfold processSource Step.next
  simp only [tree_compileSource]
  cases hcompile : (compileSource host.showingAll t settings.options source).result with
  | error e =>
      have hfails := (fails_iff host).2 hcompile
      simp only [conclude, Host.say_showingAll]
      split
      · next he => exact .reported hfails he
      · next he => exact .stopped hfails (by simpa using he)
  | ok result =>
      cases result with
      | none =>
          simp only [conclude, Host.say_showingAll]
          exact .skipped (ofName?_of_compileSource hcompile)
      | some b =>
          have hb := (compiles_iff host).2 hcompile
          simp only [conclude, Host.say_showingAll]
          split
          · next hout => exact .shown hb hout
          · next outDir hout => exact processed_deliver ht hstem hb hout host

namespace Processed

variable {host : Host} {t t' : FileTree} {settings : Settings} {source relative : Path}
  {r : Except Fault Status}

theorem grows (h : Processed host t settings source relative t' r) : t.Extends t' := by
  cases h with
  | delivered _ _ _ _ _ hw => exact hw.grows
  | _ => exact .refl t

theorem consistent (ht : t.Consistent) (h : Processed host t settings source relative t' r) :
    t'.Consistent := by
  cases h with
  | delivered _ _ _ _ _ hw => exact hw.consistent
  | _ => exact ht

/-- What becomes of a source that compiles when there is an output directory. -/
theorem cases_of_compiles {b : Bundle} {outDir : Path} (hb : Compiles t settings.options source b)
    (hout : settings.outDir = some outDir) (h : Processed host t settings source relative t' r) :
    r = .error .nullInPath ∧ (outDir.join relative.parent).hasNull = true ∨
    (outDir.join relative.parent).hasNull = false ∧
      ((Target.ofSource t.cwd outDir relative).Includes (source.resolve t.cwd) ∧
          r = .ok .error ∨
        ¬(Target.ofSource t.cwd outDir relative).Includes (source.resolve t.cwd) ∧
          ∃ written, b.writeOn host (outDir.join relative.parent) relative.stem t = (t', written) ∧
            Written host b t (outDir.join relative.parent) relative.stem t' written ∧
            r = written.map fun _ => .ok) := by
  cases h with
  | reported hfails | stopped hfails => exact absurd hfails hb.not_fails
  | skipped hkind =>
      obtain ⟨kind, _, hsome, -⟩ := hb
      rw [hkind] at hsome
      cases hsome
  | shown _ hnone =>
      rw [hout] at hnone
      cases hnone
  | unplaced hb' hout' hnull =>
      cases hout.symm.trans hout'
      exact .inl ⟨rfl, hnull⟩
  | kept hb' hout' hnull hown =>
      cases hout.symm.trans hout'
      exact .inr ⟨hnull, .inl ⟨hown, rfl⟩⟩
  | delivered hb' hout' hnull hown hwrite hw =>
      cases hout.symm.trans hout'
      cases hb.unique hb'
      exact .inr ⟨hnull, .inr ⟨hown, _, hwrite, hw, rfl⟩⟩

/-- A source that ends well has been written where it should be. -/
theorem written_of_ok {outDir : Path} (hout : settings.outDir = some outDir)
    (h : Processed host t settings source relative t' (.ok .ok)) :
    ∃ b files, Compiles t settings.options source b ∧
      Written host b t (outDir.join relative.parent) relative.stem t' (.ok files) := by
  generalize hr : Except.ok Status.ok = r at h
  cases h with
  | reported | stopped | skipped | unplaced | kept => cases hr
  | shown _ hnone =>
      rw [hout] at hnone
      cases hnone
  | @delivered b outDir' t' r hb hout' _ _ _ hw =>
      cases hout.symm.trans hout'
      cases r with
      | error e => cases hr
      | ok files => exact ⟨b, files, hb, hw⟩

end Processed

/-- The source stores its results, and this place has what writing leaves of one of them. -/
def StoredAt (host : Host) (cwd : Place) (t : FileTree) (settings : Settings)
    (source relative : Path) (place : Place) (content : Option ByteArray) : Prop :=
  ∃ outDir b, settings.outDir = some outDir ∧ Compiles t settings.options source b ∧
    ¬(Target.ofSource cwd outDir relative).Includes (source.resolve cwd) ∧
    (place = (Target.ofSource cwd outDir relative).markup ∧ content = some (host.bytes b.markup) ∨
      place = (Target.ofSource cwd outDir relative).code ∧ content = some (host.bytes b.code))

theorem Processed.content_cases {host : Host} {t t' : FileTree} {settings : Settings}
    {source relative : Path} {r : Except Fault Status}
    (h : Processed host t settings source relative t' r) (place : Place) :
    t'.contentAt? place = t.contentAt? place ∨
      StoredAt host t.cwd t settings source relative place (t'.contentAt? place) := by
  cases h with
  | delivered hb hout _ hown _ hw =>
      exact (hw.content_cases place).imp_right fun hcontent => ⟨_, _, hout, hb, hown, hcontent⟩
  | _ => exact .inl rfl

end PageForms.Compilation
