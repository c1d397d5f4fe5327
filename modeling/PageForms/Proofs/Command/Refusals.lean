import Mathlib.Data.List.TakeWhile
import PageForms.Command.Compile

/-!
# Messages that the console refuses

`Host.Cuts` relates two steps: the second one is the first, cut off at the first event that the
console refuses. A run on any console is related like that to the run on a console that shows
everything, so that what a refusal can do to a run is known from the latter: the result is the fault
of the console, and the tree is the one that some of the sources, from the first one on, have left.
-/

namespace PageForms

/-! ## Steps in sequence -/

namespace Step

variable {α β : Type} {x : Step α}

theorem andThen_of_ok {a : α} (h : x.result = .ok a) (f : FileTree → α → Step β) :
    (x.andThen f).tree = (f x.tree a).tree ∧ (x.andThen f).result = (f x.tree a).result := by
  unfold andThen next
  rw [h]
  exact ⟨rfl, rfl⟩

theorem andThen_of_error {e : Fault} (h : x.result = .error e) (f : FileTree → α → Step β) :
    (x.andThen f).tree = x.tree ∧ (x.andThen f).result = .error e := by
  unfold andThen next
  rw [h]
  exact ⟨rfl, rfl⟩

/-- A step that only makes something of the result leaves the tree. -/
theorem andThen_quiet (x : Step α) (f : α → β) :
    (x.andThen fun t a => quiet t (.ok (f a))).tree = x.tree ∧
      (x.andThen fun t a => quiet t (.ok (f a))).result = x.result.map f := by
  cases h : x.result with
  | error e => exact andThen_of_error h _
  | ok a => exact andThen_of_ok h _

end Step

/-! ## One step cut off from another -/

namespace Host

/-- The second step is the first one, cut off at the first event that the console refuses. -/
inductive Cuts {α : Type} (host : Host) (full : Step α) : Step α → Prop
  | whole (hshown : full.events.all host.shows = true) : Cuts host full full
  | cut {x : Step α} (hrefused : full.events.all host.shows = false)
      (hevents : x.events = full.events.takeWhile host.shows)
      (hresult : x.result = .error .unshowable) : Cuts host full x

variable {α β : Type} {host : Host}

private theorem takeWhile_append_of_all {events : List ConsoleEvent}
    (h : events.all host.shows = true) (more : List ConsoleEvent) :
    (events ++ more).takeWhile host.shows = events ++ more.takeWhile host.shows :=
  List.takeWhile_append_of_pos (List.all_eq_true.1 h)

private theorem takeWhile_append_of_refused {events : List ConsoleEvent}
    (h : events.all host.shows = false) (more : List ConsoleEvent) :
    (events ++ more).takeWhile host.shows = events.takeWhile host.shows := by
  induction events with
  | nil => cases h
  | cons event events ih =>
      rw [List.cons_append, List.takeWhile_cons, List.takeWhile_cons]
      cases hevent : host.shows event with
      | false => rfl
      | true =>
          rw [List.all_cons, hevent, Bool.true_and] at h
          simp only [if_true, ih h]

theorem showingAll_ideal : ideal.showingAll = ideal :=
  rfl

theorem say_showingAll (host : Host) (t : FileTree) (events : List ConsoleEvent) (a : α) :
    host.showingAll.say t events a = { tree := t, events, result := .ok a } := by
  have hall : events.all host.showingAll.shows = true := List.all_eq_true.2 fun _ _ => rfl
  rw [say, if_pos hall, List.takeWhile_eq_self_iff.2 (List.all_eq_true.1 hall)]

namespace Cuts

theorem quiet (t : FileTree) (r : Except Fault α) : host.Cuts (.quiet t r) (.quiet t r) :=
  .whole rfl

theorem say (t : FileTree) (events : List ConsoleEvent) (a : α) :
    host.Cuts (host.showingAll.say t events a) (host.say t events a) := by
  rw [say_showingAll]
  cases hall : events.all host.shows with
  | true =>
      have hsay : host.say t events a = { tree := t, events, result := .ok a } := by
        rw [Host.say, if_pos hall, List.takeWhile_eq_self_iff.2 (List.all_eq_true.1 hall)]
      rw [hsay]
      exact .whole hall
  | false => exact .cut hall rfl (by simp [Host.say, hall])

/-- What was shown before changes nothing. -/
theorem behind {y z : Step β} (h : host.Cuts y z) {events : List ConsoleEvent}
    (hshown : events.all host.shows = true) :
    host.Cuts { y with events := events ++ y.events } { z with events := events ++ z.events } := by
  cases h with
  | whole hmore =>
      refine .whole ?_
      rw [List.all_append, hshown, hmore]
      rfl
  | cut hrefused hevents hresult =>
      refine .cut ?_ ?_ hresult
      · rw [List.all_append, hrefused, Bool.and_false]
      · rw [takeWhile_append_of_all hshown, hevents]

/-- Going on keeps the relation if a refusal is not gone on from. -/
theorem next {full x : Step α} (h : host.Cuts full x)
    {f g : FileTree → Except Fault α → Step β} (hfg : ∀ t r, host.Cuts (f t r) (g t r))
    (hg : ∀ t, g t (.error .unshowable) = .quiet t (.error .unshowable)) :
    host.Cuts (full.next f) (x.next g) := by
  cases h with
  | whole hshown => exact (hfg full.tree full.result).behind hshown
  | cut hrefused hevents hresult =>
      unfold Step.next
      rw [hresult, hg]
      refine .cut ?_ ?_ rfl
      · rw [List.all_append, hrefused, Bool.false_and]
      · rw [takeWhile_append_of_refused hrefused, ← hevents]
        exact List.append_nil _

theorem andThen {full x : Step α} (h : host.Cuts full x) {f g : FileTree → α → Step β}
    (hfg : ∀ t a, host.Cuts (f t a) (g t a)) : host.Cuts (full.andThen f) (x.andThen g) := by
  refine h.next ?_ fun _ => rfl
  rintro t (e | a)
  · exact .quiet t _
  · exact hfg t a

/-- A step that did not end with the fault of the console is whole. -/
theorem eq_of_result {full x : Step α} (h : host.Cuts full x)
    (hresult : x.result ≠ .error .unshowable) : x = full := by
  cases h with
  | whole => rfl
  | cut _ _ hunshown => exact absurd hunshown hresult

theorem events_eq {full x : Step α} (h : host.Cuts full x) :
    x.events = full.events.takeWhile host.shows := by
  cases h with
  | whole hshown => rw [List.takeWhile_eq_self_iff.2 (List.all_eq_true.1 hshown)]
  | cut _ hevents _ => exact hevents

theorem result_eq_error_iff {full x : Step α} (h : host.Cuts full x) (e : Fault) :
    x.result = .error e ↔
      (e = .unshowable ∧ ∃ event ∈ full.events, host.shows event = false) ∨
        (∀ event ∈ full.events, host.shows event = true) ∧ full.result = .error e := by
  have hnone : full.events.all host.shows = true ↔
      ¬∃ event ∈ full.events, host.shows event = false := by
    simp [List.all_eq_true]
  cases h with
  | whole hshown =>
      rw [← List.all_eq_true]
      simp [hshown, hnone.1 hshown]
  | cut hrefused _ hresult =>
      rw [← List.all_eq_true, hresult]
      have hsome : ∃ event ∈ full.events, host.shows event = false := by
        by_contra hnot
        rw [hnone.2 hnot] at hrefused
        cases hrefused
      simp only [hsome, and_true, hrefused, Bool.false_eq_true, false_and, or_false]
      exact ⟨fun h => (Except.error.inj h).symm, fun h => congrArg Except.error h.symm⟩

end Cuts

end Host

/-! ## Runs -/

namespace Compilation

theorem writeOn_showingAll (host : Host) (b : Bundle) (directory : Path) (stem : String)
    (t : FileTree) :
    b.writeOn host.showingAll directory stem t = b.writeOn host directory stem t := by
  have htext : host.showingAll.writeText = host.writeText := rfl
  unfold Bundle.writeOn Bundle.writeFiles
  rw [htext]

section Source

variable (host : Host) (t : FileTree) (settings : Settings) (source relative : Path)

private theorem cuts_compileSource (options : CompileOptions) :
    host.Cuts (compileSource host.showingAll t options source)
      (compileSource host t options source) := by
  unfold compileSource
  split
  · exact .say ..
  · split
    · exact .quiet ..
    · exact (Host.Cuts.say ..).andThen fun _ _ => .quiet ..

private theorem cuts_deliver (outDir : Path) (b : Bundle) :
    host.Cuts (deliver host.showingAll t outDir source relative b)
      (deliver host t outDir source relative b) := by
  unfold deliver
  rw [writeOn_showingAll]
  split
  · exact .quiet ..
  · exact .say ..
  · split
    · exact .quiet ..
    · exact .say ..

private theorem cuts_conclude (result : Except Fault (Option Bundle)) :
    host.Cuts (conclude host.showingAll settings source relative t result)
      (conclude host settings source relative t result) := by
  unfold conclude
  split
  · split
    · exact .say ..
    · exact .quiet ..
  · exact .say ..
  · split
    · exact .say ..
    · exact cuts_deliver ..

theorem cuts_processSource :
    host.Cuts (processSource host.showingAll t settings source relative)
      (processSource host t settings source relative) :=
  (cuts_compileSource host t source settings.options).next
    (fun t r => cuts_conclude host t settings source relative r) fun _ => rfl

/-- Compiling a source changes nothing. -/
theorem tree_compileSource (options : CompileOptions) :
    (compileSource host t options source).tree = t := by
  unfold compileSource
  split
  · rfl
  · split
    · rfl
    · simp only [Step.andThen, Step.next]
      split <;> rfl

/-- What a source writes does not depend on the console. -/
theorem tree_conclude (result : Except Fault (Option Bundle)) :
    (conclude host settings source relative t result).tree =
      (conclude host.showingAll settings source relative t result).tree := by
  unfold conclude
  split
  · split <;> rfl
  · rfl
  · split
    · rfl
    · unfold deliver
      rw [writeOn_showingAll]
      split
      · rfl
      · rfl
      · split <;> rfl

/-- A refusal leaves the tree as before the turn of a source or as after it. -/
theorem tree_processSource_cases :
    (processSource host t settings source relative).tree = t ∨
      (processSource host t settings source relative).tree =
        (processSource host.showingAll t settings source relative).tree := by
  unfold processSource Step.next
  rw [tree_compileSource, tree_compileSource]
  cases hresult : (compileSource host t settings.options source).result with
  | error e =>
      by_cases he : e = .unshowable
      · subst he
        exact .inl rfl
      · have heq := (cuts_compileSource host t source settings.options).eq_of_result
          (by simpa [hresult] using he)
        rw [← heq, hresult]
        exact .inr (tree_conclude ..)
  | ok compiled =>
      have heq := (cuts_compileSource host t source settings.options).eq_of_result
        (by simp [hresult])
      rw [← heq, hresult]
      exact .inr (tree_conclude ..)

end Source

theorem cuts_processAll (host : Host) (t : FileTree) (settings : Settings) (root : Path)
    (sources : List Path) :
    host.Cuts (processAll host.showingAll t settings root sources)
      (processAll host t settings root sources) := by
  induction sources generalizing t with
  | nil => exact .quiet ..
  | cons source sources ih =>
      unfold processAll
      exact (cuts_processSource ..).andThen fun t _ => (ih t).andThen fun _ _ => .quiet ..

private theorem cuts_processBatch (host : Host) (t : FileTree) (settings : Settings) (root : Path)
    (sources : List Path) :
    host.Cuts (processBatch host.showingAll t settings root sources)
      (processBatch host t settings root sources) :=
  (cuts_processAll ..).andThen fun _ _ => .say ..

private theorem cuts_runWith (host : Host) (t : FileTree) (settings : Settings) (path : Path) :
    host.Cuts (runWith host.showingAll t settings path) (runWith host t settings path) := by
  unfold runWith
  split
  · exact cuts_processBatch ..
  · split
    · exact .say ..
    · exact (Host.Cuts.say ..).andThen fun _ _ => cuts_processBatch ..

/-- A run is the run on a console that shows everything, cut off at the first event that the console
refuses. -/
theorem cuts_run (host : Host) (t : FileTree) (overrides : Settings.Overrides) (path : Path) :
    host.Cuts (run host.showingAll t overrides path) (run host t overrides path) := by
  unfold run
  split
  · split
    · exact cuts_runWith ..
    · split
      · exact .say ..
      · exact .quiet ..
  · exact .say ..

end Compilation

end PageForms
