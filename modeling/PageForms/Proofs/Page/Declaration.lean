import PageForms.Proofs.Page.Acceptance

/-!
# Importing the runtime environment keeps the declaration

The import goes to the end of the first `:use` clause, or into a clause of its own in front of the
first form behind the name. Taking it out again gives back the items of the declaration, one by one
and in their order, so nothing that was declared is lost or moved.
-/

namespace PageForms

open Datum

namespace Datum

def isUseClause : Datum → Bool
  | .seq shape (.keyword head :: _) => shape.isCall && head == "use"
  | _ => false

def lastItem? : Datum → Option Datum
  | .seq _ xs => xs.getLast?
  | _ => none

def dropLastItem : Datum → Datum
  | .seq shape xs => .seq shape xs.dropLast
  | v => v

private theorem isUseClause_eq_true_iff {v : Datum} : v.isUseClause = true ↔
    ∃ shape args, v = .seq shape (.keyword "use" :: args) ∧ shape.isCall = true := by
  constructor
  · intro h
    unfold isUseClause at h
    split at h
    · next shape head args =>
      obtain ⟨hshape, hhead⟩ := Bool.and_eq_true_iff.1 h
      obtain rfl := beq_iff_eq.1 hhead
      exact ⟨shape, args, rfl, hshape⟩
    · cases h
  · rintro ⟨shape, args, rfl, hshape⟩
    simp [isUseClause, hshape]

private theorem isUseClause_eq (v : Datum) : v.isUseClause = (v.role == .use) := by
  rw [Bool.eq_iff_iff, isUseClause_eq_true_iff, beq_iff_eq]
  constructor
  · rintro ⟨shape, args, rfl, hshape⟩
    rw [role_seq_cons hshape]
    rfl
  · intro h
    unfold role at h
    split at h
    case h_5 =>
      next args hitems =>
        obtain ⟨shape, rfl, hshape⟩ := eq_seq_of_formItems? hitems
        exact ⟨shape, args, rfl, hshape⟩
    all_goals cases h

end Datum

namespace Namespace

/-! ## Where the import goes -/

private theorem extendUse?_cons_of_use {shape : Shape} (hshape : shape.isCall = true)
    (args clauses : List Datum) :
    extendUse? (.seq shape (.keyword "use" :: args) :: clauses) =
      some (.seq shape (.keyword "use" :: args ++ [runtimeExports]) :: clauses) := by
  have hrole : (seq shape (.keyword "use" :: args)).role = .use := role_seq_cons hshape _ _
  unfold extendUse?
  simp only [hrole]

private theorem extendUse?_cons_of_other {v : Datum} (h : v.isUseClause = false)
    (clauses : List Datum) :
    extendUse? (v :: clauses) = (extendUse? clauses).map (v :: ·) := by
  have hrole : v.role ≠ .use := by simpa [isUseClause_eq] using h
  rw [extendUse?]
  intro shape xs huse
  exact absurd huse hrole

private theorem extendUse?_append {before : List Datum} (h : ∀ v ∈ before, v.isUseClause = false)
    (clauses : List Datum) :
    extendUse? (before ++ clauses) = (extendUse? clauses).map (before ++ ·) := by
  induction before with
  | nil => simp
  | cons v before ih =>
      rw [List.cons_append, extendUse?_cons_of_other (h v (by simp)),
        ih fun w hw => h w (by simp [hw]), Option.map_map]
      rfl

private theorem extendUse?_eq_none {clauses : List Datum}
    (h : ∀ v ∈ clauses, v.isUseClause = false) :
    extendUse? clauses = none := by
  have happend := extendUse?_append h []
  rwa [List.append_nil] at happend

/-- The values are split at the first `:use` clause, if they have one. -/
theorem exists_split_of_any_use {values : List Datum} (h : values.any isUseClause = true) :
    ∃ before shape args after,
      values = before ++ .seq shape (.keyword "use" :: args) :: after ∧ shape.isCall = true ∧
      ∀ v ∈ before, v.isUseClause = false := by
  obtain ⟨clause, hfind⟩ := Option.isSome_iff_exists.1 (List.find?_isSome.2 (List.any_eq_true.1 h))
  obtain ⟨huse, before, after, rfl, hbefore⟩ := List.find?_eq_some_iff_append.1 hfind
  obtain ⟨shape, args, rfl, hshape⟩ := isUseClause_eq_true_iff.1 huse
  refine ⟨before, shape, args, after, rfl, hshape, ?_⟩
  intro v hv
  simpa using hbefore v hv

def runtimeUse : Datum :=
  .form [.keyword "use", runtimeExports]

/-- Without a `:use` clause the import stands in front of the first form. -/
theorem insertUse_eq (clauses : List Datum) : ∃ others rest, clauses = others ++ rest ∧
    insertUse clauses = others ++ runtimeUse :: rest ∧ (∀ v ∈ others, v.isForm = false) ∧
    ∀ v ∈ rest.head?, v.isForm = true := by
  refine ⟨clauses.takeWhile (fun v => !v.isForm), clauses.dropWhile (fun v => !v.isForm),
    List.takeWhile_append_dropWhile.symm, rfl, ?_, ?_⟩
  · intro v hv
    simpa using List.mem_takeWhile_imp hv
  · intro v hv
    have hhead := List.head?_dropWhile_not (fun v : Datum => !v.isForm) clauses
    rw [Option.mem_def.1 hv] at hhead
    simpa using hhead

/-! ## Taking it out again -/

def dropImport : List Datum → List Datum
  | [] => []
  | v :: vs => if v.isUseClause then v.dropLastItem :: vs else v :: dropImport vs

/-- The items of a declaration without the import: it is the last item of the first `:use` clause,
or the whole of that clause if the declaration had none. -/
def withoutImport (hadUse : Bool) (items : List Datum) : List Datum :=
  if hadUse then dropImport items else items.eraseP isUseClause

def importOf? (items : List Datum) : Option Datum :=
  (items.find? isUseClause).bind lastItem?

private theorem dropImport_append {before : List Datum} (h : ∀ v ∈ before, v.isUseClause = false)
    (items : List Datum) : dropImport (before ++ items) = before ++ dropImport items := by
  induction before with
  | nil => rfl
  | cons v before ih =>
      rw [List.cons_append, dropImport, if_neg (by simp [h v]), ih fun w hw => h w (by simp [hw])]
      rfl

private theorem dropImport_cons_of_use {shape : Shape} (hshape : shape.isCall = true)
    (args : List Datum) (v : Datum) (clauses : List Datum) :
    dropImport (.seq shape (.keyword "use" :: args ++ [v]) :: clauses) =
      .seq shape (.keyword "use" :: args) :: clauses := by
  have huse : (seq shape (.keyword "use" :: args ++ [v])).isUseClause = true :=
    isUseClause_eq_true_iff.2 ⟨shape, args ++ [v], rfl, hshape⟩
  rw [dropImport, if_pos huse, dropLastItem, List.dropLast_concat]

private theorem importOf?_append {before : List Datum} (h : ∀ v ∈ before, v.isUseClause = false)
    {shape : Shape} (hshape : shape.isCall = true) (args : List Datum) (v : Datum)
    (after : List Datum) :
    importOf? (before ++ .seq shape (.keyword "use" :: args ++ [v]) :: after) = some v := by
  have huse : (seq shape (.keyword "use" :: args ++ [v])).isUseClause = true :=
    isUseClause_eq_true_iff.2 ⟨shape, args ++ [v], rfl, hshape⟩
  have hnone : before.find? isUseClause = none := by simpa using h
  rw [importOf?, List.find?_append, hnone, Option.none_or, List.find?_cons_of_pos huse,
    Option.bind_some, lastItem?, List.getLast?_concat]

/-! ## The declaration -/

private theorem importRuntime_seq {shape : Shape} (hshape : shape.isCall = true)
    {literals : List Datum} (hliterals : ∀ v ∈ literals, v.isLiteral = true) (n : String)
    (clauses : List Datum) :
    importRuntime (.seq shape (.symbol "ns" :: literals ++ .symbol n :: clauses)) =
      .ok (.form (.symbol "ns" :: literals ++ .symbol n ::
        (extendUse? clauses).getD (insertUse clauses))) := by
  unfold importRuntime
  rw [split?_seq hshape hliterals]

private theorem isUseClause_front {literals : List Datum} (h : ∀ v ∈ literals, v.isLiteral = true)
    (n : String) : ∀ v ∈ .symbol "ns" :: literals ++ [.symbol n], v.isUseClause = false := by
  intro v hv
  simp only [List.cons_append, List.mem_cons, List.mem_append, List.not_mem_nil, or_false] at hv
  rcases hv with rfl | hv | rfl
  · rfl
  · cases v with
    | literal => rfl
    | _ => cases h _ hv
  · rfl

/-- The new clause stands behind the name and what follows it up to the first form, and all other
items are where they were. -/
def AddsClause (items imported : List Datum) : Prop :=
  ∃ literals n others clauses,
    items = .symbol "ns" :: literals ++ .symbol n :: (others ++ clauses) ∧
    imported = .symbol "ns" :: literals ++ .symbol n :: (others ++ runtimeUse :: clauses) ∧
    (∀ v ∈ literals, v.isLiteral = true) ∧ (∀ v ∈ others, v.isForm = false) ∧
    ∀ v ∈ clauses.head?, v.isForm = true

/-- What the items of a declaration have in common with those of the declaration with the runtime
environment imported. -/
structure KeepsItems (items imported : List Datum) : Prop where
  imports : importOf? imported = some runtimeExports
  restores : withoutImport (items.any isUseClause) imported = items
  places : items.any isUseClause = false → AddsClause items imported

private theorem keepsItems_of_use {literals before after args : List Datum} {n : String}
    {shape : Shape} (hliterals : ∀ v ∈ literals, v.isLiteral = true) (hshape : shape.isCall = true)
    (hbefore : ∀ v ∈ before, v.isUseClause = false) :
    KeepsItems
      (.symbol "ns" :: literals ++ .symbol n ::
        (before ++ .seq shape (.keyword "use" :: args) :: after))
      (.symbol "ns" :: literals ++ .symbol n ::
        (before ++ .seq shape (.keyword "use" :: args ++ [runtimeExports]) :: after)) := by
  have hfront : ∀ v ∈ .symbol "ns" :: literals ++ [.symbol n] ++ before,
      v.isUseClause = false := by
    intro v hv
    exact (List.mem_append.1 hv).elim (isUseClause_front hliterals n v) (hbefore v)
  have hsplit : ∀ rest, .symbol "ns" :: literals ++ .symbol n :: (before ++ rest) =
      .symbol "ns" :: literals ++ [.symbol n] ++ before ++ rest := by
    simp
  have huse : (seq shape (.keyword "use" :: args)).isUseClause = true :=
    isUseClause_eq_true_iff.2 ⟨shape, args, rfl, hshape⟩
  have hany : (.symbol "ns" :: literals ++ [.symbol n] ++ before ++
      .seq shape (.keyword "use" :: args) :: after : List Datum).any isUseClause = true := by
    simp [huse]
  rw [hsplit, hsplit]
  refine ⟨importOf?_append hfront hshape args runtimeExports after, ?_, ?_⟩
  · rw [hany, withoutImport, if_pos rfl, dropImport_append hfront, dropImport_cons_of_use hshape]
  · intro hnone
    rw [hany] at hnone
    cases hnone

private theorem keepsItems_of_no_use {literals clauses : List Datum} {n : String}
    (hliterals : ∀ v ∈ literals, v.isLiteral = true)
    (hclauses : ∀ v ∈ clauses, v.isUseClause = false) :
    KeepsItems (.symbol "ns" :: literals ++ .symbol n :: clauses)
      (.symbol "ns" :: literals ++ .symbol n :: insertUse clauses) := by
  obtain ⟨others, rest, rfl, hinsert, hothers, hrest⟩ := insertUse_eq clauses
  have hname := isUseClause_front hliterals n
  have hfront : ∀ v ∈ .symbol "ns" :: literals ++ [.symbol n] ++ others,
      v.isUseClause = false := by
    intro v hv
    exact (List.mem_append.1 hv).elim (hname v) fun hv => hclauses v (by simp [hv])
  have hany : (.symbol "ns" :: literals ++ .symbol n :: (others ++ rest)).any isUseClause =
      false := by
    rw [List.append_cons, List.any_append, Bool.or_eq_false_iff, List.any_eq_false,
      List.any_eq_false]
    exact ⟨by simpa using hname, by simpa using hclauses⟩
  have himported : .symbol "ns" :: literals ++ .symbol n :: (others ++ runtimeUse :: rest) =
      .symbol "ns" :: literals ++ [.symbol n] ++ others ++ runtimeUse :: rest := by
    simp
  rw [hinsert]
  refine ⟨?_, ?_, fun _ => ⟨literals, n, others, rest, rfl, rfl, hliterals, hothers, hrest⟩⟩
  · rw [himported]
    exact importOf?_append hfront rfl [] runtimeExports rest
  · rw [hany, withoutImport, if_neg Bool.false_ne_true, himported,
      List.eraseP_append_right _ (by simpa using hfront), List.eraseP_cons_of_pos rfl]
    simp

/-- A declaration that names its namespace still names it when the runtime is imported, and all its
items stay in their order around the import; every other declaration is refused. -/
theorem importRuntime_keeps_items (declaration : Datum) :
    (Page.NamesNamespace declaration → ∃ shape items imported,
      declaration = .seq shape items ∧ importRuntime declaration = .ok (.form imported) ∧
      KeepsItems items imported ∧
      ∃ n, name declaration = .ok n ∧ name (.form imported) = .ok n) ∧
    (¬Page.NamesNamespace declaration → ∃ fault,
      importRuntime declaration = .error fault ∧ fault.isRefusal = true) := by
  have haccepts := Page.importRuntime_acceptsIff declaration
  refine ⟨?_, ?_⟩
  · intro hnames
    obtain ⟨n, hname⟩ := (Page.name_acceptsIff declaration).accepts.2 hnames
    obtain ⟨shape, literals, n', clauses, rfl, hshape, hliterals⟩ := hnames
    have himport := importRuntime_seq hshape hliterals n' clauses
    refine ⟨shape, _, _, rfl, himport, ?_, n, hname, (name_importRuntime himport).trans hname⟩
    by_cases huse : clauses.any isUseClause = true
    · obtain ⟨before, shape', args, after, rfl, hshape', hbefore⟩ := exists_split_of_any_use huse
      rw [extendUse?_append hbefore, extendUse?_cons_of_use hshape']
      exact keepsItems_of_use hliterals hshape' hbefore
    · have hclauses : ∀ v ∈ clauses, v.isUseClause = false := by simpa using huse
      rw [extendUse?_eq_none hclauses]
      exact keepsItems_of_no_use hliterals hclauses
  · intro hnames
    cases h : importRuntime declaration with
    | error fault => exact ⟨fault, rfl, haccepts.refuses fault h⟩
    | ok imported => exact absurd (haccepts.accepts.1 ⟨imported, h⟩) hnames

/-- Metadata before the name, a text and an empty form behind it, and no `:use` clause. -/
theorem importRuntime_keeps_items_documented :
    ∃ declaration imported,
      declaration = .call "ns" [.literal "^:dev", .symbol "a", .str "doc", .form [],
        .form [.keyword "require", .symbol "b"]] ∧
      Page.NamesNamespace declaration ∧ importRuntime declaration = .ok (.form imported) ∧
      withoutImport false imported = [.symbol "ns", .literal "^:dev", .symbol "a", .str "doc",
        .form [], .form [.keyword "require", .symbol "b"]] ∧
      imported.map isUseClause = [false, false, false, false, false, true, false] := by
  have hnames : Page.NamesNamespace (.call "ns" [.literal "^:dev", .symbol "a", .str "doc",
      .form [], .form [.keyword "require", .symbol "b"]]) :=
    ⟨.form, [.literal "^:dev"], "a", _, rfl, rfl, by simp [isLiteral]⟩
  obtain ⟨shape, items, imported, hitems, himport, hkeeps, -⟩ :=
    (importRuntime_keeps_items _).1 hnames
  cases hitems
  refine ⟨_, imported, rfl, hnames, himport, hkeeps.restores, ?_⟩
  cases himport
  rfl

end Namespace

end PageForms
