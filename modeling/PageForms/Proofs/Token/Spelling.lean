import PageForms.Proofs.Token.Boundary
import PageForms.Text.Join

/-!
# Texts that spell lexemes

`Spells text ls` says that `text` is cut into `ls` wherever it stands, as long as nothing behind it
lengthens its last lexeme. Spellings are put together with separators and brackets between them,
which is all that writing and laying out do.
-/

namespace PageForms.Token

/-- Before every text that cannot lengthen an atom, `text` contributes the lexemes `ls`. -/
def Spells (text : String) (ls : List Lexeme) : Prop :=
  ∀ r ms, Ended r → Lexes r ms → Lexes (text.toList ++ r) (ls ++ ms)

/-- The text separates what stands on its two sides. -/
def IsGap (text : String) : Prop :=
  text.toList ≠ [] ∧ ∀ c ∈ text.toList, isSeparator c = true

theorem Spells.lexes {text : String} {ls : List Lexeme} (h : Spells text ls) :
    Lexes text.toList ls := by
  have hself := h [] [] ended_nil .nil
  rwa [List.append_nil, List.append_nil] at hself

theorem spells_empty : Spells "" [] := by
  intro r ms _ hrest
  exact hrest

theorem IsLexeme.spells {kind : TokenKind} {text : String} (h : IsLexeme kind text) :
    Spells text [(kind, text)] := by
  intro r ms hr hrest
  exact h.lexes_append hr hrest

theorem Ended.append {cs r : List Char} (hcs : Ended cs) (hr : Ended r) : Ended (cs ++ r) := by
  cases cs with
  | nil => exact hr
  | cons c cs => exact ended_cons (hcs c rfl)

theorem IsGap.ended {gap : String} (h : IsGap gap) (s : String) : Ended (gap ++ s).toList := by
  obtain ⟨c, cs, hcs⟩ := List.exists_cons_of_ne_nil h.1
  rw [String.toList_append, hcs, List.cons_append]
  apply ended_cons
  apply isDelimiter_of_isSeparator
  exact h.2 c (by simp [hcs])

theorem Spells.append {a b : String} {la lb : List Lexeme} (ha : Spells a la) (hb : Spells b lb)
    (hend : Ended b.toList) : Spells (a ++ b) (la ++ lb) := by
  intro r ms hr hrest
  rw [String.toList_append, List.append_assoc, List.append_assoc]
  exact ha _ _ (hend.append hr) (hb r ms hr hrest)

theorem IsGap.spells_append {gap s : String} {ls : List Lexeme} (hgap : IsGap gap)
    (h : Spells s ls) : Spells (gap ++ s) ls := by
  intro r ms hr hrest
  rw [String.toList_append, List.append_assoc]
  exact lexes_separators_append hgap.2 (h r ms hr hrest)

theorem Spells.append_gap {a gap b : String} {la lb : List Lexeme} (ha : Spells a la)
    (hgap : IsGap gap) (hb : Spells b lb) : Spells (a ++ gap ++ b) (la ++ lb) := by
  rw [String.append_assoc]
  exact ha.append (hgap.spells_append hb) (hgap.ended b)

private theorem isGap_of_all {gap : String} (hne : gap.toList ≠ [])
    (h : gap.toList.all isSeparator = true) : IsGap gap :=
  ⟨hne, List.all_eq_true.1 h⟩

theorem isGap_space : IsGap " " :=
  isGap_of_all (by decide) (by decide)

theorem isGap_comma_space : IsGap ", " :=
  isGap_of_all (by decide) (by decide)

theorem isGap_newline : IsGap "\n" :=
  isGap_of_all (by decide) (by decide)

private theorem IsGap.append_spaces {gap : String} (h : IsGap gap) (n : Int) :
    IsGap (gap ++ Text.spaces n) := by
  constructor
  · rw [String.toList_append]
    exact List.append_ne_nil_of_left_ne_nil h.1 _
  · intro c hc
    rw [String.toList_append, List.mem_append] at hc
    rcases hc with hc | hc
    · exact h.2 c hc
    · rw [Text.spaces, String.toList_ofList] at hc
      rw [List.eq_of_mem_replicate hc]
      decide

/-- A break of the line, with the indentation of the next one. -/
theorem isGap_newline_spaces (n : Int) : IsGap ("\n" ++ Text.spaces n) :=
  isGap_newline.append_spaces n

theorem isGap_comma_newline_spaces (n : Int) : IsGap (",\n" ++ Text.spaces n) := by
  have hcomma : IsGap ",\n" := isGap_of_all (by decide) (by decide)
  exact hcomma.append_spaces n

/-- Spellings joined with gaps spell all their lexemes in order. -/
theorem spells_joinWith {α : Type} {gap : String} (hgap : IsGap gap) {text : α → String}
    {lexemes : α → List Lexeme} {xs : List α} (h : ∀ x ∈ xs, Spells (text x) (lexemes x)) :
    Spells (Text.joinWith gap (xs.map text)) (xs.flatMap lexemes) := by
  induction xs with
  | nil => exact spells_empty
  | cons x xs ih =>
      have hx := h x (by simp)
      have hxs := ih (fun y hy => h y (by simp [hy]))
      cases xs with
      | nil =>
          rw [List.flatMap_cons, List.flatMap_nil, List.append_nil]
          exact hx
      | cons y xs =>
          rw [List.flatMap_cons]
          exact hx.append_gap hgap hxs

/-- The text is one lexeme whatever follows it. -/
def IsBracket (kind : TokenKind) (text : String) : Prop :=
  ∀ r ms, Lexes r ms → Lexes (text.toList ++ r) ((kind, text) :: ms)

theorem isBracket_single {c : Char} {kind : TokenKind}
    (h : ∀ cs, lexeme? c cs = some (some kind, 0)) : IsBracket kind (String.ofList [c]) := by
  intro r ms hrest
  rw [String.toList_ofList]
  exact .token (h r) hrest

theorem isBracket_pair {c d : Char} {kind : TokenKind}
    (h : ∀ cs, lexeme? c (d :: cs) = some (some kind, 1)) :
    IsBracket kind (String.ofList [c, d]) := by
  intro r ms hrest
  rw [String.toList_ofList]
  exact .token (h r) hrest

theorem IsBracket.spells_append {kind : TokenKind} {text s : String} {ls : List Lexeme}
    (hopen : IsBracket kind text) (h : Spells s ls) : Spells (text ++ s) ((kind, text) :: ls) := by
  intro r ms hr hrest
  rw [String.toList_append, List.append_assoc]
  exact hopen _ _ (h r ms hr hrest)

theorem Spells.append_bracket {kind : TokenKind} {s text : String} {ls : List Lexeme}
    (h : Spells s ls) (hclose : IsBracket kind text) (hend : Ended text.toList) :
    Spells (s ++ text) (ls ++ [(kind, text)]) := by
  apply h.append _ hend
  intro r ms _ hrest
  exact hclose r ms hrest

/-- A text in brackets. -/
theorem Spells.enclose {openText body closeText : String} {openKind closeKind : TokenKind}
    {ls : List Lexeme} (hopen : IsBracket openKind openText) (hbody : Spells body ls)
    (hclose : IsBracket closeKind closeText) (hend : Ended closeText.toList) :
    Spells (openText ++ body ++ closeText)
      ((openKind, openText) :: (ls ++ [(closeKind, closeText)])) :=
  (hopen.spells_append hbody).append_bracket hclose hend

end PageForms.Token
