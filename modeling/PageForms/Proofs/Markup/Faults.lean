import PageForms.Proofs.Markup.Document

/-!
# How scanning can fail

A markup text is refused where a character reference has too many digits, and scanning it ends
where a declaration of an unknown kind opens. Nothing else keeps a text from being a document.
-/

namespace PageForms

abbrev OnlyRefuses {α : Type} (x : Except Fault α) : Prop :=
  FaultsIn (fun e => e.isRefusal = true) x

namespace Reference

private theorem number?_onlyRefuses {cs rest : List Char} {chars : Except Fault (List Char)}
    (h : number? cs = some (chars, rest)) : OnlyRefuses chars := by
  unfold number? at h
  simp only at h
  split at h
  · split at h
    · split at h
      · split at h
        · cases h
        · cases h
          exact .ok _
      · cases h
    · cases h
  · cases h
    split
    · exact .ok _
    · exact .error rfl

private theorem reference?_onlyRefuses {cs rest : List Char} {chars : Except Fault (List Char)}
    (h : reference? cs = some (chars, rest)) : OnlyRefuses chars := by
  unfold reference? at h
  split at h
  · exact number?_onlyRefuses h
  · split at h
    · cases h
    · cases h
    · cases h
      exact .ok _

private theorem decode_onlyRefuses (cs : List Char) : OnlyRefuses (decode cs) := by
  fun_induction decode cs with
  | case1 => exact .ok _
  | case2 cs chars rest href ih =>
      apply (reference?_onlyRefuses href).bind
      intro front _
      exact ih.bind fun _ _ => .ok _
  | case3 cs href ih => exact ih.map _
  | case4 c cs hc ih => exact ih.map _

end Reference

namespace Scanner

def IsFault (e : Fault) : Prop :=
  e = .unknownDeclaration ∨ e.isRefusal = true

private theorem decode_faultsIn (cs : List Char) : FaultsIn IsFault (Reference.decode cs) :=
  (Reference.decode_onlyRefuses cs).imp fun _ => .inr

private theorem plain_faultsIn (cs : List Char) : FaultsIn IsFault (plain cs) :=
  (decode_faultsIn cs).bind fun _ _ => .ok _

private theorem decodeAttributes_faultsIn (attrs : List (List Char × Option (List Char))) :
    FaultsIn IsFault (decodeAttributes attrs) := by
  induction attrs with
  | nil => exact .ok _
  | cons attr attrs ih =>
      obtain ⟨name, value⟩ := attr
      have hrest : ∀ value : Option String, FaultsIn IsFault
          (do return (Text.lower (String.ofList name), value) :: (← decodeAttributes attrs)) :=
        fun _ => ih.bind fun _ _ => .ok _
      cases value with
      | none => exact hrest none
      | some v =>
          apply (decode_faultsIn v).bind
          intro decoded _
          exact hrest (some (String.ofList decoded))

private theorem startTag?_faultsIn (cs : List Char) : FaultsIn IsFault (startTag? cs) := by
  have hattrs := decodeAttributes_faultsIn
  unfold startTag?
  simp only
  split
  · exact .ok _
  · split
    · exact (hattrs _).bind fun _ _ => .ok _
    · exact (hattrs _).bind fun _ _ => .ok _
    · exact .ok _
    · split
      · exact .ok _
      · exact (hattrs _).bind fun _ _ => .ok _

private theorem section?_faultsIn (cs : List Char) : FaultsIn IsFault (section? cs) := by
  unfold section?
  split
  · exact .ok _
  · split
    · split
      · exact .ok _
      · simp only
        split
        · exact .error (.inl rfl)
        · exact .ok _
    · exact .error (.inl rfl)

private theorem declaration?_faultsIn (cs : List Char) : FaultsIn IsFault (declaration? cs) := by
  unfold declaration?
  split
  · exact .ok _
  · exact section?_faultsIn _
  · split <;> exact .ok _

private theorem piece_faultsIn (cs : List Char) : FaultsIn IsFault (piece cs) := by
  have hfinish : ∀ {x : Except Fault (Option Piece)} {next : Option Piece → Except Fault Piece},
      FaultsIn IsFault x → (∀ found, next (some found) = .ok found) → next none = unfinished cs →
      FaultsIn IsFault (x >>= next) := by
    intro x next hx hsome hnone
    apply hx.bind
    intro found? _
    cases found? with
    | none =>
        rw [hnone]
        exact (plain_faultsIn _).bind fun _ _ => .ok _
    | some found =>
        rw [hsome]
        exact .ok _
  unfold piece
  simp only
  split
  · exact hfinish (.ok _) (fun _ => rfl) rfl
  · exact hfinish (declaration?_faultsIn _) (fun _ => rfl) rfl
  · exact hfinish (.ok _) (fun _ => rfl) rfl
  · split
    · exact hfinish (startTag?_faultsIn _) (fun _ => rfl) rfl
    · exact .ok _
  · exact .ok _

private theorem scanFrom_faultsIn (raw : Option String) (cs : List Char) :
    FaultsIn IsFault (scanFrom raw cs) := by
  fun_induction scanFrom raw cs with
  | case1 => exact .ok _
  | case2 => exact .ok _
  | case3 c cs tag found hfound ih => exact ih.bind fun _ _ => .ok _
  | case4 cs ih =>
      apply (piece_faultsIn cs).bind
      intro found _
      exact (ih found).bind fun _ _ => .ok _
  | case5 c cs hc ih =>
      apply (plain_faultsIn _).bind
      intro text _
      exact ih.bind fun _ _ => .ok _

end Scanner

theorem Document.parse_faultsIn (text : String) : FaultsIn Scanner.IsFault (parse text) :=
  (Scanner.scanFrom_faultsIn none text.toList).bind fun _ _ => .ok _

end PageForms
