import PageForms.Page.Namespace
import PageForms.Page.Stylesheet
import PageForms.Proofs.Datum.Restorable
import PageForms.Proofs.Page.Role
import PageForms.Proofs.Reader.Names

/-!
# The text of a module reads back

Everything that goes into a module is restorable: compiled stylesheets, the declaration with the
runtime environment imported and the entry point. The text of a module is therefore read as its
forms, whatever the margin.
-/

namespace PageForms

open Datum

private theorem restorable_symbol {name : String} (h : isAtomOf (.symbol name) name = true) :
    (Datum.symbol name).Restorable :=
  restorable_of_isAtomOf h rfl

private theorem restorable_keyword {name : String}
    (h : isAtomOf (.keyword name) (":" ++ name) = true) :
    (Datum.keyword name).Restorable :=
  restorable_of_isAtomOf h rfl

theorem restorable_call {head : String} {xs : List Datum}
    (hhead : isAtomOf (.symbol head) head = true) (hxs : ∀ x ∈ xs, x.Restorable) :
    (Datum.call head xs).Restorable := by
  apply restorable_seq rfl
  intro x hx
  rcases List.mem_cons.1 hx with rfl | hx
  · exact restorable_symbol hhead
  · exact hxs x hx

/-! ## Stylesheets -/

namespace Stylesheet

private theorem compileForm_restorable {v w : Datum} (hv : v.Restorable)
    (h : compileForm v = .ok w) :
    w.Restorable := by
  unfold compileForm at h
  obtain ⟨rest, -, h⟩ := bind_eq_ok h
  obtain ⟨items, -, h⟩ := bind_eq_ok h
  simp only at h
  split at h
  · obtain ⟨css, -, h⟩ := bind_eq_ok h
    cases h
    apply restorable_call (by decide +kernel)
    intro x hx
    simp only [List.mem_cons, List.not_mem_nil, or_false] at hx
    rcases hx with rfl | rfl
    · refine .map ?_ ?_ ⟨by decide, by simp⟩
      · intro e he
        rw [List.mem_singleton.1 he]
        exact restorable_keyword (by decide +kernel)
      · intro e he
        rw [List.mem_singleton.1 he]
        exact restorable_str _
    · exact restorable_str css
  · cases h
    exact hv

theorem compileAll_restorable {v w : Datum} (hv : v.Restorable) (h : compileAll v = .ok w) :
    w.Restorable :=
  replaceWhere_restorable (fun _ _ hv h => compileForm_restorable hv h) v w hv h

end Stylesheet

/-! ## The declaration -/

def initials : List Char :=
  '$' :: "abcdefghijklmnopqrstuvwxyz".toList

/-- The name starts with one of these, goes on with letters, digits and a few signs, and is not the
name of a constant. -/
def isPlainName (name : String) : Bool :=
  match name.toList with
  | [] => false
  | c :: cs =>
    initials.contains c &&
      cs.all (fun d => decide (Token.IsPlain d.toNat) || d == '-' || d == '?') &&
      !(["nil", "true", "false"].contains name)

private theorem initials_spec : ∀ c ∈ initials,
    Token.isAtomStart c = true ∧ Text.isDigitLike c = false ∧ c ∉ ['+', '-', '0', ':'] := by
  have hall : initials.all (fun c => decide (Token.isAtomStart c = true ∧
      Text.isDigitLike c = false ∧ c ∉ ['+', '-', '0', ':'])) = true := by
    decide +kernel
  intro c hc
  exact of_decide_eq_true (List.all_eq_true.1 hall c hc)

private theorem isSymbolName_of_isPlainName {name : String} (h : isPlainName name = true) :
    Reader.isSymbolName name = true := by
  unfold isPlainName at h
  split at h
  · cases h
  · next c cs hname =>
    simp only [Bool.and_eq_true, List.contains_iff_mem, List.all_eq_true] at h
    obtain ⟨⟨hc, hcs⟩, hconstant⟩ := h
    obtain ⟨hstart, hdigit, hsign⟩ := initials_spec c hc
    have hchars : ∀ d ∈ cs, Token.isAtomChar d = true := by
      intro d hd
      have hplain := hcs d hd
      simp only [Bool.or_eq_true, decide_eq_true_eq, beq_iff_eq] at hplain
      rcases hplain with (hd | rfl) | rfl
      · exact Token.isAtomChar_of_isPlain hd
      · decide
      · decide
    simp only [List.mem_cons, List.not_mem_nil, or_false, not_or] at hsign
    have hnumber : Reader.startsLikeNumber (c :: cs) = false := by
      unfold Reader.startsLikeNumber
      grind
    simp only [Reader.isSymbolName, hname, Bool.and_eq_true, List.all_eq_true, bne_iff_ne, hnumber,
      Bool.not_false]
    exact ⟨⟨⟨⟨hstart, hchars⟩, hsign.2.2.2⟩, trivial⟩, hconstant⟩

private theorem restorable_of_isPlainName {name : String} (h : isPlainName name = true) :
    (Datum.symbol name).Restorable :=
  restorable_atom rfl (Reader.fromLexeme_symbol_iff.2 (isSymbolName_of_isPlainName h)) rfl

private theorem restorable_runtimeExports : runtimeExports.Restorable := by
  have hnames : (Tag.names ++ runtimePrimitives).all isPlainName = true := by
    decide +kernel
  apply restorable_seq rfl
  intro x hx
  simp only [List.mem_cons, List.not_mem_nil, or_false] at hx
  rcases hx with rfl | rfl | rfl
  · exact restorable_symbol (by decide +kernel)
  · exact restorable_keyword (by decide +kernel)
  · apply restorable_seq rfl
    intro x hx
    obtain ⟨name, hname, rfl⟩ := List.mem_map.1 hx
    exact restorable_of_isPlainName (List.all_eq_true.1 hnames name hname)

namespace Namespace

variable {q : Datum → Prop}

/-- A property of all clauses that a clause keeps when the runtime's exports are added to it. -/
theorem forall_extendUse?
    (hq : ∀ shape xs, q (.seq shape xs) → q (.seq shape (xs ++ [runtimeExports])))
    {clauses extended : List Datum} (h : extendUse? clauses = some extended)
    (hclauses : ∀ c ∈ clauses, q c) : ∀ c ∈ extended, q c := by
  induction clauses generalizing extended with
  | nil => cases h
  | cons clause clauses ih =>
      have hclause := hclauses clause (by simp)
      have hrest : ∀ c ∈ clauses, q c := fun c hc => hclauses c (by simp [hc])
      unfold extendUse? at h
      split at h
      · next shape xs hrole =>
        cases h
        intro c hc
        rcases List.mem_cons.1 hc with rfl | hc
        · exact hq shape xs hclause
        · exact hrest c hc
      · obtain ⟨more, hmore, rfl⟩ := Option.map_eq_some_iff.1 h
        intro c hc
        rcases List.mem_cons.1 hc with rfl | hc
        · exact hclause
        · exact ih hmore hrest c hc

private theorem forall_insertUse (huse : q (.form [.keyword "use", runtimeExports]))
    {clauses : List Datum} (h : ∀ c ∈ clauses, q c) : ∀ c ∈ insertUse clauses, q c := by
  intro c hc
  simp only [insertUse, List.mem_append, List.mem_cons] at hc
  rcases hc with hc | rfl | hc
  · exact h c ((List.takeWhile_sublist _).mem hc)
  · exact huse
  · exact h c ((List.dropWhile_sublist _).mem hc)

/-- A declaration is the head, some literals, the name and the clauses. -/
theorem split?_eq_some {declaration : Datum} {front clauses : List Datum} {name : String}
    (h : split? declaration = some (front, name, clauses)) :
    ∃ shape literals, declaration = .seq shape (front ++ .symbol name :: clauses) ∧
      shape.isCall = true ∧ front = .symbol "ns" :: literals ∧
      ∀ v ∈ literals, v.isLiteral = true := by
  unfold split? at h
  split at h
  · next head rest hrole hitems =>
    split at h
    · next name' clauses' hname =>
      cases h
      obtain ⟨shape, xs, hdecl, hshape⟩ := eq_seq_of_role hrole (by decide)
      rw [hdecl, formItems?_seq_cons hshape] at hitems
      cases hitems
      refine ⟨shape, rest.takeWhile isLiteral, ?_, hshape, rfl, ?_⟩
      · rw [hdecl, List.cons_append, ← hname, List.takeWhile_append_dropWhile]
      · intro v hv
        exact List.mem_takeWhile_imp hv
    · cases h
  · cases h

theorem split?_seq {shape : Shape} (hshape : shape.isCall = true) {literals clauses : List Datum}
    {name : String} (h : ∀ v ∈ literals, v.isLiteral = true) :
    split? (.seq shape (.symbol "ns" :: literals ++ .symbol name :: clauses)) =
      some (.symbol "ns" :: literals, name, clauses) := by
  have htake : (literals ++ .symbol name :: clauses).takeWhile isLiteral = literals := by
    rw [List.takeWhile_append_of_pos h, List.takeWhile_cons_of_neg (by simp [isLiteral]),
      List.append_nil]
  have hdrop : (literals ++ .symbol name :: clauses).dropWhile isLiteral =
      .symbol name :: clauses := by
    rw [List.dropWhile_append_of_pos h, List.dropWhile_cons_of_neg (by simp [isLiteral])]
  have hrole : (form [.symbol "ns"]).role = .namespace := rfl
  unfold split?
  simp only [List.cons_append, role_seq_cons hshape, formItems?_seq_cons hshape, hrole, htake,
    hdrop]

theorem importRuntime_eq_ok {declaration imported : Datum}
    (h : importRuntime declaration = .ok imported) :
    ∃ front name clauses, split? declaration = some (front, name, clauses) ∧ imported =
      .form (front ++ .symbol name :: (extendUse? clauses).getD (insertUse clauses)) := by
  unfold importRuntime at h
  split at h
  · next front name clauses hsplit =>
    cases h
    exact ⟨front, name, clauses, hsplit, rfl⟩
  · unfold refuse at h
    obtain ⟨_, -, h⟩ := bind_eq_ok h
    cases h

/-- Importing the runtime environment keeps what holds of all items of a declaration, if adding the
runtime's exports does. -/
theorem forall_importRuntime
    (hq : ∀ shape xs, q (.seq shape xs) → q (.seq shape (xs ++ [runtimeExports])))
    (huse : q (.form [.keyword "use", runtimeExports])) {declaration imported : Datum}
    (h : importRuntime declaration = .ok imported) :
    ∃ shape xs ys, declaration = .seq shape xs ∧ imported = .form ys ∧
      ((∀ x ∈ xs, q x) → ∀ y ∈ ys, q y) := by
  obtain ⟨front, name, clauses, hsplit, rfl⟩ := importRuntime_eq_ok h
  obtain ⟨shape, literals, rfl, -, -, -⟩ := split?_eq_some hsplit
  refine ⟨shape, _, _, rfl, rfl, ?_⟩
  intro hitems x hx
  have hclauses : ∀ c ∈ clauses, q c := fun c hc => hitems c (by simp [hc])
  rcases List.mem_append.1 hx with hx | hx
  · exact hitems x (by simp [hx])
  rcases List.mem_cons.1 hx with rfl | hx
  · exact hitems _ (by simp)
  · cases hextend : extendUse? clauses with
    | none =>
        rw [hextend] at hx
        exact forall_insertUse huse hclauses x hx
    | some extended =>
        rw [hextend] at hx
        exact forall_extendUse? hq hextend hclauses x hx

theorem importRuntime_restorable {declaration imported : Datum} (hd : declaration.Restorable)
    (h : importRuntime declaration = .ok imported) : imported.Restorable := by
  have hextend : ∀ shape xs, (seq shape xs).Restorable →
      (seq shape (xs ++ [runtimeExports])).Restorable := by
    intro shape xs hxs
    apply restorable_seq hxs.items.1
    intro x hx
    rcases List.mem_append.1 hx with hx | hx
    · exact hxs.items.2 x hx
    · rw [List.mem_singleton.1 hx]
      exact restorable_runtimeExports
  have huse : (form [.keyword "use", runtimeExports]).Restorable := by
    apply restorable_seq rfl
    intro x hx
    simp only [List.mem_cons, List.not_mem_nil, or_false] at hx
    rcases hx with rfl | rfl
    · exact restorable_keyword (by decide +kernel)
    · exact restorable_runtimeExports
  obtain ⟨shape, xs, ys, rfl, rfl, hitems⟩ := forall_importRuntime hextend huse h
  exact restorable_seq rfl (hitems hd.items.2)

/-- Importing the runtime environment keeps the name. -/
theorem name_importRuntime {declaration imported : Datum}
    (h : importRuntime declaration = .ok imported) : name imported = name declaration := by
  obtain ⟨front, n, clauses, hsplit, rfl⟩ := importRuntime_eq_ok h
  obtain ⟨shape, literals, -, -, rfl, hliterals⟩ := split?_eq_some hsplit
  unfold name
  rw [hsplit, split?_seq rfl hliterals]

end Namespace

/-! ## The module -/

namespace Module

theorem entryPoint_restorable {content : List Datum} (h : ∀ v ∈ content, v.Restorable) :
    (entryPoint content).Restorable := by
  have hexport : (Datum.literal "^:export").Restorable :=
    restorable_atom rfl ⟨⟨.metadata, "^:export", .start⟩, ⟨_, _, rfl, by decide⟩, rfl⟩ rfl
  apply restorable_call (by decide +kernel)
  intro x hx
  simp only [List.mem_cons, List.not_mem_nil, or_false] at hx
  rcases hx with rfl | rfl | rfl | rfl
  · exact hexport
  · exact restorable_symbol (by decide +kernel)
  · exact restorable_seq rfl (by simp)
  · apply restorable_call (by decide +kernel)
    intro x hx
    rw [List.mem_singleton.1 hx]
    exact restorable_seq rfl h

/-- One block for each form, if all of them can be written. -/
theorem mapM_layOut?_eq_ok {forms : List Datum} {width : Int} {blocks : List String}
    (h : forms.mapM (fun v => do return (← v.layOut? width 0) ++ "\n") =
      (.ok blocks : Except Fault (List String))) :
    blocks = forms.map fun v => v.layOutAt width 0 ++ "\n" := by
  induction forms generalizing blocks with
  | nil =>
      cases h
      rfl
  | cons v forms ih =>
      obtain ⟨block, rest, hblock, hrest, rfl⟩ := mapM_cons_eq_ok h
      obtain ⟨laid, hlaid, hblock⟩ := bind_eq_ok hblock
      cases hblock
      unfold layOut? ifWritable at hlaid
      split at hlaid
      · cases hlaid
        rw [List.map_cons, ih hrest]
      · cases hlaid

/-- The text of a module is read as its forms. -/
theorem read_text {forms : List Datum} {width : Int} {code : String}
    (hforms : ∀ v ∈ forms, v.Restorable) (h : text forms width = .ok code) :
    Reader.read code = .ok forms := by
  unfold text at h
  obtain ⟨blocks, hblocks, h⟩ := bind_eq_ok h
  cases h
  rw [mapM_layOut?_eq_ok hblocks]
  apply Reader.read_of_spells fun v hv => (hforms v hv).readsBack
  apply Token.spells_joinWith Token.isGap_newline
  intro v hv
  have hline := ((hforms v hv).wellFormed.spells_layOutAt width 0).append_gap Token.isGap_newline
    Token.spells_empty
  rwa [String.append_empty, List.append_nil] at hline

theorem wellFormed_of_entryPoint {p : Datum → Prop} {content : List Datum}
    (h : (entryPoint content).WellFormed p) : ∀ v ∈ content, v.WellFormed p := by
  have hinit := (wellFormed_seq_iff.1 h).2 (.call (runtimeNamespace ++ "/init") [.vector content])
    (by simp)
  have hvector := (wellFormed_seq_iff.1 hinit).2 (.vector content) (by simp)
  exact (wellFormed_seq_iff.1 hvector).2

theorem assemble_eq_ok {declaration : Datum} {content code : List Datum}
    (h : assemble declaration content = .ok code) :
    ∃ imported, Namespace.importRuntime declaration = .ok imported ∧
      code = [imported, entryPoint content] := by
  obtain ⟨imported, himported, h⟩ := bind_eq_ok h
  exact ⟨imported, himported, (Except.ok.inj h).symm⟩

/-- A module whose declaration can be read and written is read back exactly if its content can be
read. -/
theorem read_text_iff {declaration : Datum} {content code : List Datum} {width : Int}
    {text : String} (hdeclaration : declaration.Restorable)
    (hcontent : ∀ v ∈ content, v.isPrintable = true)
    (hcode : assemble declaration content = .ok code) (htext : Module.text code width = .ok text) :
    Reader.read text = .ok code ↔ ∀ v ∈ content, v.WellFormed FromLexeme := by
  obtain ⟨imported, himported, rfl⟩ := assemble_eq_ok hcode
  constructor
  · intro hread
    exact wellFormed_of_entryPoint (Reader.wellFormed_of_read hread _ (by simp))
  · intro hwf
    apply read_text _ htext
    intro v hv
    simp only [List.mem_cons, List.not_mem_nil, or_false] at hv
    rcases hv with rfl | rfl
    · exact Namespace.importRuntime_restorable hdeclaration himported
    · exact entryPoint_restorable fun w hw => (hwf w hw).and_isPrintable (hcontent w hw)

end Module

end PageForms
