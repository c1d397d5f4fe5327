import Mathlib.Data.List.Find
import PageForms.Proofs.Token.Boundary

/-!
# Lexing one text behind another

A lexeme that was found in a text is found there again when a text that starts with a delimiter is
put behind it: no name, number, string or comment reaches across. So once a text can be cut into
lexemes, a line break and another text behind it only add the lexemes of that text.
-/

namespace PageForms.Token

/-! ## Parts of a lexeme in a longer text -/

private theorem closingQuote?_append {cs : List Char} {n : Nat} (h : closingQuote? cs = some n)
    (r : List Char) : closingQuote? (cs ++ r) = some n := by
  have hfront := closingQuote?_take_append h (cs.drop n ++ r)
  rwa [← List.append_assoc, List.take_append_drop] at hfront

private theorem length_takeWhile_append {p : Char → Bool} {cs r : List Char}
    (hr : ∀ c, r.head? = some c → p c = false) :
    ((cs ++ r).takeWhile p).length = (cs.takeWhile p).length := by
  have hrest : r.takeWhile p = [] := by
    cases r with
    | nil => rfl
    | cons c r => rw [List.takeWhile_cons, hr c rfl]; rfl
  rw [List.takeWhile_append]
  split
  · next hall => rw [hrest, List.append_nil, hall]
  · rfl

/-- A word of atom characters does not reach across a delimiter. -/
theorem prefix_append_iff_of_ended {word cs r : List Char}
    (hword : ∀ c ∈ word, isAtomChar c = true) (hr : Ended r) :
    word <+: cs ++ r ↔ word <+: cs := by
  constructor
  · rintro ⟨more, hmore⟩
    rcases List.append_eq_append_iff.1 hmore with ⟨rest, rfl, -⟩ | ⟨extra, rfl, hextra⟩
    · exact List.prefix_append word rest
    · cases extra with
      | nil => simp
      | cons d extra =>
          have hd : isDelimiter d = true := hr d (by rw [hextra]; rfl)
          rw [isDelimiter_eq_false_of_isAtomChar (hword d (by simp))] at hd
          cases hd
  · intro h
    exact h.trans (List.prefix_append cs r)

private theorem find?_characterNames_append_ended {r : List Char} (hr : Ended r) (cs : List Char) :
    characterNames.find? (fun name => name.toList.isPrefixOf (cs ++ r)) =
      characterNames.find? fun name => name.toList.isPrefixOf cs := by
  apply List.find?_congr
  intro name hname
  rw [Bool.eq_iff_iff, List.isPrefixOf_iff_prefix, List.isPrefixOf_iff_prefix]
  exact prefix_append_iff_of_ended (characterNames_isAtomChar hname) hr

/-- Four hexadecimal digits are found in a text or not at all. -/
theorem fourDigits_append {r : List Char} (hr : Ended r) (cs : List Char) :
    (4 ≤ (cs ++ r).length && ((cs ++ r).take 4).all fun c => (Text.hexValue? c).isSome) =
      (4 ≤ cs.length && (cs.take 4).all fun c => (Text.hexValue? c).isSome) := by
  by_cases hlong : 4 ≤ cs.length
  · have hlong' : 4 ≤ (cs ++ r).length := by
      rw [List.length_append]
      omega
    rw [List.take_append_of_le_length hlong, decide_eq_true hlong, decide_eq_true hlong']
  · rw [decide_eq_false hlong, Bool.false_and]
    cases r with
    | nil => rw [List.append_nil, decide_eq_false hlong, Bool.false_and]
    | cons d r =>
        have hd : d ∈ (cs ++ d :: r).take 4 := by
          rw [List.take_append, List.mem_append]
          obtain ⟨k, hk⟩ : ∃ k, 4 - cs.length = k + 1 := ⟨3 - cs.length, by omega⟩
          right
          rw [hk, List.take_succ_cons]
          exact List.mem_cons_self ..
        rw [Bool.and_eq_false_iff]
        right
        rw [List.all_eq_false]
        exact ⟨d, hd, by simp [hr.hexValue?_eq_none]⟩

private theorem characterLength?_append {cs : List Char} {n : Nat}
    (h : characterLength? cs = some n)
    {r : List Char} (hr : Ended r) : characterLength? (cs ++ r) = some n := by
  unfold characterLength? at h ⊢
  rw [find?_characterNames_append_ended hr]
  split at h
  · exact h
  · split at h
    · cases h
    · next rest _ =>
      simp only [List.cons_append]
      rwa [fourDigits_append hr]
    · next hne hnot =>
      obtain ⟨c, rest, rfl⟩ := List.exists_cons_of_ne_nil hne
      rw [List.cons_append]
      split
      · next heq => cases heq
      · next heq =>
        cases heq
        exact absurd rfl (hnot rest)
      · exact h

/-! ## Lexemes in a longer text -/

/-- A lexeme is found again when a text that starts with a delimiter is put behind the whole. -/
theorem lexeme?_append {c : Char} {cs : List Char} {kind : TokenKind} {n : Nat}
    (h : lexeme? c cs = some (some kind, n)) {r : List Char} (hr : Ended r) :
    lexeme? c (cs ++ r) = some (some kind, n) := by
  have hatom : ∀ d, r.head? = some d → isAtomChar d = false := by
    intro d hd
    simp [isAtomChar, hr d hd]
  unfold lexeme? at h
  split at h
  · cases h
  · next hc =>
    unfold lexeme?
    rw [if_neg hc]
    split at h
    case h_2 =>
      obtain ⟨m, hm, heq⟩ := Option.map_eq_some_iff.1 h
      cases heq
      simp only [closingQuote?_append hm, Option.map_some]
    case h_3 =>
      split at h
      · obtain ⟨m, hm, heq⟩ := Option.map_eq_some_iff.1 h
        cases heq
        simp only [List.cons_append, closingQuote?_append hm, Option.map_some]
      all_goals cases h
      all_goals rfl
    case h_4 =>
      simp only at h
      split at h
      · cases h
      · next hlength =>
        cases h
        simp only [length_takeWhile_append hatom]
        rw [if_neg hlength]
    case h_5 =>
      obtain ⟨m, hm, heq⟩ := Option.map_eq_some_iff.1 h
      cases heq
      simp only [characterLength?_append hm hr, Option.map_some]
    case h_14 =>
      split at h
      · next hstart =>
        cases h
        simp only [length_takeWhile_append hatom]
        rw [if_pos hstart]
      · cases h
    all_goals cases h
    all_goals rfl

/-- What stands at the front without being a token is a run of separators or a comment. -/
theorem lexeme?_skip_cases {c : Char} {cs : List Char} {n : Nat}
    (h : lexeme? c cs = some (none, n)) :
    (isSeparator c = true ∧ n = (cs.takeWhile isSeparator).length) ∨
      (c = ';' ∧ n = (cs.takeWhile (· != '\n')).length) := by
  unfold lexeme? at h
  split at h
  · next hc =>
    cases h
    exact .inl ⟨hc, rfl⟩
  · split at h
    case h_1 =>
      cases h
      exact .inr ⟨rfl, rfl⟩
    case h_2 =>
      obtain ⟨m, -, heq⟩ := Option.map_eq_some_iff.1 h
      cases heq
    case h_3 =>
      split at h
      · obtain ⟨m, -, heq⟩ := Option.map_eq_some_iff.1 h
        cases heq
      all_goals cases h
    case h_4 =>
      simp only at h
      split at h <;> cases h
    case h_5 =>
      obtain ⟨m, -, heq⟩ := Option.map_eq_some_iff.1 h
      cases heq
    case h_14 => split at h <;> cases h
    all_goals cases h

/-! ## Cutting a longer text -/

private theorem lexes_token_iff {c : Char} {cs : List Char} {kind : TokenKind} {n : Nat}
    (h : lexeme? c cs = some (some kind, n)) {ls : List Lexeme} :
    Lexes (c :: cs) ls ↔
      ∃ ms, ls = (kind, String.ofList (c :: cs.take n)) :: ms ∧ Lexes (cs.drop n) ms := by
  constructor
  · intro hlexes
    cases hlexes with
    | skip hsome _ =>
        rw [h] at hsome
        cases hsome
    | token hsome hrest =>
        rw [h] at hsome
        cases hsome
        exact ⟨_, rfl, hrest⟩
  · rintro ⟨ms, rfl, hrest⟩
    exact .token h hrest

private theorem lexes_skip_iff {c : Char} {cs : List Char} {n : Nat}
    (h : lexeme? c cs = some (none, n)) {ls : List Lexeme} :
    Lexes (c :: cs) ls ↔ Lexes (cs.drop n) ls := by
  constructor
  · intro hlexes
    cases hlexes with
    | skip hsome hrest =>
        rw [h] at hsome
        cases hsome
        exact hrest
    | token hsome _ =>
        rw [h] at hsome
        cases hsome
  · exact .skip h

/-- Separators in front of a text do not change what it is cut into. -/
theorem lexes_separator_cons_iff {c : Char} (hc : isSeparator c = true) {cs : List Char}
    {ls : List Lexeme} : Lexes (c :: cs) ls ↔ Lexes cs ls := by
  refine ⟨fun h => ?_, lexes_separator_cons hc⟩
  have hfirst : lexeme? c cs = some (none, (cs.takeWhile isSeparator).length) := by
    unfold lexeme?
    rw [if_pos hc]
  have hrun : ∀ d ∈ cs.takeWhile isSeparator, isSeparator d = true :=
    List.all_eq_true.1 List.all_takeWhile
  have hrest := lexes_separators_append hrun ((lexes_skip_iff hfirst).1 h)
  rwa [List.prefix_iff_eq_append.1 (List.takeWhile_prefix isSeparator)] at hrest

private theorem lexes_separators_append_iff {seps : List Char}
    (h : ∀ c ∈ seps, isSeparator c = true)
    {cs : List Char} {ls : List Lexeme} : Lexes (seps ++ cs) ls ↔ Lexes cs ls := by
  induction seps with
  | nil => rfl
  | cons c seps ih =>
      rw [List.cons_append, lexes_separator_cons_iff (h c (by simp))]
      exact ih fun d hd => h d (by simp [hd])

/-- If a text can be cut into lexemes, then the text with another one behind a line break can be cut
exactly if the other one can, and the lexemes are those of the first and those of the second. -/
theorem Lexes.append_newline_iff {cs : List Char} {ls : List Lexeme} (h : Lexes cs ls)
    {other : List Char} {ns : List Lexeme} :
    Lexes (cs ++ '\n' :: other) ns ↔ ∃ ms, ns = ls ++ ms ∧ Lexes other ms := by
  have hbreak : isSeparator '\n' = true := by decide
  induction h generalizing ns with
  | nil => simp [lexes_separator_cons_iff hbreak]
  | @skip c cs n ls hsome _ ih =>
      refine Iff.trans ?_ ih
      rcases lexeme?_skip_cases hsome with ⟨hc, rfl⟩ | ⟨rfl, rfl⟩
      · -- the run of separators may go on behind the text, so it is taken off as a whole
        have hrun : ∀ d ∈ c :: cs.takeWhile isSeparator, isSeparator d = true :=
          List.forall_mem_cons.2 ⟨hc, List.all_eq_true.1 List.all_takeWhile⟩
        have hsplit : c :: cs ++ '\n' :: other =
            (c :: cs.takeWhile isSeparator) ++
              (cs.drop (cs.takeWhile isSeparator).length ++ '\n' :: other) := by
          rw [List.cons_append, List.cons_append, ← List.append_assoc,
            List.prefix_iff_eq_append.1 (List.takeWhile_prefix isSeparator)]
        rw [hsplit, lexes_separators_append_iff hrun]
      · have hcomment : lexeme? ';' (cs ++ '\n' :: other) =
            some (none, (cs.takeWhile (· != '\n')).length) := by
          rw [← length_takeWhile_append (r := '\n' :: other)]
          · rfl
          · rintro d hd
            cases hd
            rfl
        rw [List.cons_append, lexes_skip_iff hcomment,
          List.drop_append_of_le_length (List.takeWhile_prefix _).length_le]
  | @token c cs kind n ls hsome _ ih =>
      have hle := lexeme?_le hsome
      have hended : Ended ('\n' :: other) := ended_cons (isDelimiter_of_isSeparator hbreak)
      have hsame := lexeme?_append hsome hended
      rw [List.cons_append, lexes_token_iff hsame, List.take_append_of_le_length hle,
        List.drop_append_of_le_length hle]
      constructor
      · rintro ⟨ks, rfl, hks⟩
        obtain ⟨ms, rfl, hms⟩ := ih.1 hks
        exact ⟨ms, rfl, hms⟩
      · rintro ⟨ms, rfl, hms⟩
        exact ⟨ls ++ ms, rfl, ih.2 ⟨ms, rfl, hms⟩⟩

end PageForms.Token
