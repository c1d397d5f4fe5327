import Mathlib.Data.List.TakeWhile
import PageForms.Proofs.Token.Lexes

/-!
# Where a lexeme ends

A lexeme reaches as far as it can, so what it is depends on the characters behind it. It does not
depend on them when they start with a delimiter: `lexeme?_take_append` puts any such text in the
place of the one a lexeme was found before. Every lexeme is therefore one by itself, and stays the
same one before every delimiter.
-/

namespace PageForms.Token

/-- The text is empty or starts with a delimiter, so that it cannot lengthen an atom before it. -/
def Ended (cs : List Char) : Prop :=
  ∀ c, cs.head? = some c → isDelimiter c = true

theorem ended_nil : Ended [] := by
  intro c h
  cases h

theorem ended_cons {c : Char} {cs : List Char} (h : isDelimiter c = true) : Ended (c :: cs) := by
  intro d hd
  cases hd
  exact h

theorem isDelimiter_of_isSeparator {c : Char} (h : isSeparator c = true) :
    isDelimiter c = true := by
  rw [isDelimiter, h, Bool.true_or]

private theorem ended_head_not {p : Char → Bool} {c : Char} {cs : List Char} (h : Ended (c :: cs))
    (hp : ∀ d, p d = true → isDelimiter d = false) : p c = false := by
  have hc := h c rfl
  cases hpc : p c with
  | false => rfl
  | true =>
      rw [hp c hpc] at hc
      cases hc

theorem isDelimiter_eq_false_of_isAtomChar {c : Char} (h : isAtomChar c = true) :
    isDelimiter c = false := by
  simpa [isAtomChar] using h

/-! ## The parts of a lexeme before another text -/

private theorem closingQuote?_le {cs : List Char} {n : Nat} (h : closingQuote? cs = some n) :
    n ≤ cs.length := by
  fun_induction closingQuote? cs generalizing n with
  | case1 => cases h
  | case2 => cases h; simp
  | case3 c cs ih =>
      obtain ⟨m, hm, rfl⟩ := Option.map_eq_some_iff.1 h
      have := ih hm
      simp only [List.length_cons]
      omega
  | case4 c cs _ _ ih =>
      obtain ⟨m, hm, rfl⟩ := Option.map_eq_some_iff.1 h
      have := ih hm
      simp only [List.length_cons]
      omega

theorem closingQuote?_cons {c : Char} (cs : List Char) (hquote : c ≠ '\x22')
    (hbackslash : c ≠ '\\') : closingQuote? (c :: cs) = (closingQuote? cs).map (· + 1) := by
  rw [closingQuote?]
  · exact hquote
  · intro d ds heq
    exact absurd heq hbackslash

theorem closingQuote?_take_append {cs : List Char} {n : Nat} (h : closingQuote? cs = some n)
    (r : List Char) : closingQuote? (cs.take n ++ r) = some n := by
  fun_induction closingQuote? cs generalizing n with
  | case1 => cases h
  | case2 => cases h; rfl
  | case3 c cs ih =>
      obtain ⟨m, hm, rfl⟩ := Option.map_eq_some_iff.1 h
      simp only [List.take_succ_cons, List.cons_append, closingQuote?, ih hm, Option.map_some]
  | case4 c cs hquote hbackslash ih =>
      obtain ⟨m, hm, rfl⟩ := Option.map_eq_some_iff.1 h
      have hc : c ≠ '\\' := by
        rintro rfl
        cases cs with
        | nil => cases hm
        | cons d ds => exact hbackslash d ds rfl rfl
      rw [List.take_succ_cons, List.cons_append, closingQuote?_cons _ hquote hc, ih hm]
      rfl

private theorem length_takeWhile_take_append {p : Char → Bool} {cs r : List Char}
    (hr : ∀ c, r.head? = some c → p c = false) :
    ((cs.take (cs.takeWhile p).length ++ r).takeWhile p).length = (cs.takeWhile p).length := by
  have hfront : cs.take (cs.takeWhile p).length = cs.takeWhile p :=
    (List.prefix_iff_eq_take.1 (List.takeWhile_prefix p)).symm
  have hrest : r.takeWhile p = [] := by
    cases r with
    | nil => rfl
    | cons c r => rw [List.takeWhile_cons, hr c rfl]; rfl
  rw [hfront, List.takeWhile_append_of_pos, hrest, List.append_nil]
  exact List.all_eq_true.1 List.all_takeWhile

/-- A name that a character literal may have is not the front of another one. -/
theorem find?_characterNames_append {name : String} (hname : name ∈ characterNames)
    (r : List Char) :
    characterNames.find? (fun other => other.toList.isPrefixOf (name.toList ++ r)) =
      some name := by
  simp only [characterNames, List.mem_cons, List.not_mem_nil, or_false] at hname
  rcases hname with rfl | rfl | rfl | rfl | rfl | rfl <;> rfl

theorem characterNames_isAtomChar {name : String} (hname : name ∈ characterNames) :
    ∀ c ∈ name.toList, isAtomChar c = true := by
  have hall : characterNames.all (fun name => name.toList.all isAtomChar) = true := by decide
  exact List.all_eq_true.1 (List.all_eq_true.1 hall name hname)

/-- No name starts with one character and a delimiter behind it. -/
theorem find?_characterNames_single (c : Char) {r : List Char} (hr : Ended r) :
    characterNames.find? (fun name => name.toList.isPrefixOf (c :: r)) = none := by
  rw [List.find?_eq_none]
  intro name hname hfront
  have hlong : ∃ a b rest, name.toList = a :: b :: rest := by
    simp only [characterNames, List.mem_cons, List.not_mem_nil, or_false] at hname
    rcases hname with rfl | rfl | rfl | rfl | rfl | rfl <;> exact ⟨_, _, _, rfl⟩
  obtain ⟨a, b, rest, hlist⟩ := hlong
  have hb : isAtomChar b = true := characterNames_isAtomChar hname b (by simp [hlist])
  rw [hlist] at hfront
  cases r with
  | nil => simp [List.isPrefixOf] at hfront
  | cons d r =>
      simp only [List.isPrefixOf, Bool.and_eq_true, beq_iff_eq] at hfront
      rw [hfront.2.1] at hb
      have hd := hr d rfl
      rw [isDelimiter_eq_false_of_isAtomChar hb] at hd
      cases hd

def IsPlain (n : Nat) : Prop :=
  (0x30 ≤ n ∧ n ≤ 0x39) ∨ (0x41 ≤ n ∧ n ≤ 0x5a) ∨ (0x61 ≤ n ∧ n ≤ 0x7a)
deriving Decidable

theorem isAtomChar_of_isPlain {c : Char} (h : IsPlain c.toNat) : isAtomChar c = true := by
  unfold IsPlain at h
  cases hd : isDelimiter c with
  | false => simp [isAtomChar, hd]
  | true =>
      exfalso
      simp only [isDelimiter, isSeparator, Bool.or_eq_true, beq_iff_eq, List.contains_iff_mem] at hd
      rcases hd with (hblank | rfl) | hmem
      · simp only [Text.isBlank, Bool.or_eq_true, Bool.and_eq_true, decide_eq_true_eq,
          beq_iff_eq] at hblank
        omega
      · revert h
        decide
      · simp only [List.mem_cons, List.not_mem_nil, or_false] at hmem
        rcases hmem with rfl | rfl | rfl | rfl | rfl | rfl | rfl | rfl | rfl | rfl | rfl | rfl |
          rfl <;> revert h <;> decide

private theorem isPlain_of_hexValue? {c : Char} (h : (Text.hexValue? c).isSome = true) :
    IsPlain c.toNat := by
  unfold IsPlain
  simp only [Text.hexValue?] at h
  split at h
  · next hdigit =>
    simp only [Bool.and_eq_true, decide_eq_true_eq] at hdigit
    omega
  · split at h
    · next hupper =>
      simp only [Bool.and_eq_true, decide_eq_true_eq] at hupper
      omega
    · split at h
      · next hlower =>
        simp only [Bool.and_eq_true, decide_eq_true_eq] at hlower
        omega
      · cases h

theorem Ended.hexValue?_eq_none {c : Char} {r : List Char} (h : Ended (c :: r)) :
    (Text.hexValue? c).isSome = false := by
  apply ended_head_not h
  intro d hd
  exact isDelimiter_eq_false_of_isAtomChar (isAtomChar_of_isPlain (isPlain_of_hexValue? hd))

private theorem characterLength?_le {cs : List Char} {n : Nat} (h : characterLength? cs = some n) :
    n ≤ cs.length := by
  unfold characterLength? at h
  split at h
  · next name hfind =>
    cases h
    have hfront := List.find?_some hfind
    exact (List.isPrefixOf_iff_prefix.1 hfront).length_le
  · split at h
    · cases h
    · next rest =>
      split at h
      · next hhex =>
        cases h
        simp only [Bool.and_eq_true, decide_eq_true_eq] at hhex
        simp only [List.length_cons]
        omega
      · cases h
        simp
    · next hne _ =>
      cases h
      exact List.length_pos_iff.2 hne

theorem find?_characterNames_u (cs : List Char) :
    characterNames.find? (fun name => name.toList.isPrefixOf ('u' :: cs)) = none := rfl

private theorem characterLength?_single (c : Char) {r : List Char} (hr : Ended r) :
    characterLength? (c :: r) = some 1 := by
  unfold characterLength?
  rw [find?_characterNames_single c hr]
  simp only
  split
  · next heq => cases heq
  · next rest heq =>
    cases heq
    rw [if_neg]
    intro hhex
    cases r with
    | nil => simp at hhex
    | cons d r =>
        simp only [List.take_succ_cons, List.all_cons, hr.hexValue?_eq_none] at hhex
        simp at hhex
  · rfl

private theorem characterLength?_take_append {cs : List Char} {n : Nat}
    (h : characterLength? cs = some n)
    {r : List Char} (hr : Ended r) : characterLength? (cs.take n ++ r) = some n := by
  unfold characterLength? at h
  split at h
  · next name hfind =>
    cases h
    have hfound := List.find?_some hfind
    have hfront := List.isPrefixOf_iff_prefix.1 hfound
    have htake : cs.take name.length = name.toList := by
      rw [← String.length_toList]
      exact (List.prefix_iff_eq_take.1 hfront).symm
    unfold characterLength?
    rw [htake, find?_characterNames_append (List.mem_of_find?_eq_some hfind)]
  · split at h
    · cases h
    · next rest _ =>
      split at h
      · next hhex =>
        cases h
        simp only [Bool.and_eq_true, decide_eq_true_eq] at hhex
        have hlength : (rest.take 4).length = 4 := by
          rw [List.length_take]
          omega
        have htake : (rest.take 4 ++ r).take 4 = rest.take 4 := by
          rw [List.take_append_of_le_length (by omega), List.take_take]
          rfl
        rw [List.take_succ_cons, List.cons_append]
        unfold characterLength?
        rw [find?_characterNames_u]
        simp only
        rw [if_pos]
        rw [htake, hhex.2, Bool.and_true, List.length_append, decide_eq_true_eq]
        omega
      · cases h
        exact characterLength?_single 'u' hr
    · next hne _ =>
      cases h
      obtain ⟨c, rest, rfl⟩ := List.exists_cons_of_ne_nil hne
      exact characterLength?_single c hr

/-! ## Lexemes before another text -/

theorem lexeme?_le {c : Char} {cs : List Char} {kind : TokenKind} {n : Nat}
    (h : lexeme? c cs = some (some kind, n)) : n ≤ cs.length := by
  have hwhile (p : Char → Bool) : (cs.takeWhile p).length ≤ cs.length :=
    (List.takeWhile_prefix p).length_le
  unfold lexeme? at h
  split at h
  · cases h
  · split at h
    case h_2 =>
      obtain ⟨m, hm, heq⟩ := Option.map_eq_some_iff.1 h
      cases heq
      exact closingQuote?_le hm
    case h_3 =>
      split at h
      · obtain ⟨m, hm, heq⟩ := Option.map_eq_some_iff.1 h
        cases heq
        have := closingQuote?_le hm
        simp only [List.length_cons]
        omega
      all_goals cases h
      all_goals simp
    case h_4 =>
      simp only at h
      split at h
      · cases h
      · cases h
        exact hwhile isAtomChar
    case h_5 =>
      obtain ⟨m, hm, heq⟩ := Option.map_eq_some_iff.1 h
      cases heq
      exact characterLength?_le hm
    case h_14 =>
      split at h
      · cases h
        exact hwhile isAtomChar
      · cases h
    all_goals cases h
    all_goals exact Nat.zero_le _

/-- What a lexeme is does not depend on the text behind it, as long as that is empty or starts
with a delimiter. -/
theorem lexeme?_take_append {c : Char} {cs : List Char} {kind : TokenKind} {n : Nat}
    (h : lexeme? c cs = some (some kind, n)) {r : List Char} (hr : Ended r) :
    lexeme? c (cs.take n ++ r) = some (some kind, n) := by
  have hatom : ∀ d, r.head? = some d → isAtomChar d = false := by
    intro d hd
    simp [isAtomChar, hr d hd]
  unfold lexeme? at h
  split at h
  · cases h
  · next hc =>
    unfold lexeme?
    rw [if_neg hc]
    split at h
    case h_2 =>
      obtain ⟨m, hm, heq⟩ := Option.map_eq_some_iff.1 h
      cases heq
      simp only [closingQuote?_take_append hm, Option.map_some]
    case h_3 =>
      split at h
      · obtain ⟨m, hm, heq⟩ := Option.map_eq_some_iff.1 h
        cases heq
        simp only [List.take_succ_cons, List.cons_append, closingQuote?_take_append hm,
          Option.map_some]
      all_goals cases h
      all_goals rfl
    case h_4 =>
      simp only at h
      split at h
      · cases h
      · next hlength =>
        cases h
        simp only [length_takeWhile_take_append hatom]
        rw [if_neg hlength]
    case h_5 =>
      obtain ⟨m, hm, heq⟩ := Option.map_eq_some_iff.1 h
      cases heq
      simp only [characterLength?_take_append hm hr, Option.map_some]
    case h_14 =>
      split at h
      · next hstart =>
        cases h
        simp only [length_takeWhile_take_append hatom]
        rw [if_pos hstart]
      · cases h
    all_goals cases h
    all_goals rfl

def IsLexeme (kind : TokenKind) (text : String) : Prop :=
  ∃ c cs, text.toList = c :: cs ∧ lexeme? c cs = some (some kind, cs.length)

private theorem isLexeme_of_lexeme? {c : Char} {cs : List Char} {kind : TokenKind} {n : Nat}
    (h : lexeme? c cs = some (some kind, n)) :
    IsLexeme kind (String.ofList (c :: cs.take n)) := by
  have hle := lexeme?_le h
  refine ⟨c, cs.take n, String.toList_ofList, ?_⟩
  have hself := lexeme?_take_append h ended_nil
  rw [List.append_nil] at hself
  rw [hself, List.length_take_of_le hle]

/-- Every lexeme a text is cut into is one by itself. -/
theorem Lexes.isLexeme {cs : List Char} {ls : List Lexeme} (h : Lexes cs ls) :
    ∀ l ∈ ls, IsLexeme l.1 l.2 := by
  induction h with
  | nil =>
      intro l hl
      cases hl
  | skip _ _ ih => exact ih
  | token hsome _ ih =>
      intro l hl
      rcases List.mem_cons.1 hl with rfl | hl
      · exact isLexeme_of_lexeme? hsome
      · exact ih l hl

theorem lexeme?_of_isAtomStart {c : Char} (h : isAtomStart c = true) (cs : List Char) :
    lexeme? c cs = some (some .atom, (cs.takeWhile isAtomChar).length) := by
  have hdelimiter : isDelimiter c = false := by
    simp only [isAtomStart, Bool.and_eq_true] at h
    exact isDelimiter_eq_false_of_isAtomChar h.1.1
  have hseparator : isSeparator c = false := by
    cases hsep : isSeparator c with
    | false => rfl
    | true =>
        rw [isDelimiter_of_isSeparator hsep] at hdelimiter
        cases hdelimiter
  unfold lexeme?
  rw [if_neg (by simp [hseparator])]
  split
  all_goals first
    | rw [if_pos h]
    | exact absurd h (by decide)

/-- A text of characters that can be inside an atom, the first of which can start one, is an
atom. -/
theorem isLexeme_atom {text : String} {c : Char} {cs : List Char} (htext : text.toList = c :: cs)
    (hc : isAtomStart c = true) (hcs : ∀ b ∈ cs, isAtomChar b = true) : IsLexeme .atom text := by
  refine ⟨c, cs, htext, ?_⟩
  rw [lexeme?_of_isAtomStart hc, List.takeWhile_eq_self_iff.2 hcs]

/-- A lexeme stays one before every text that cannot lengthen it. -/
theorem IsLexeme.lexes_append {kind : TokenKind} {text : String} (h : IsLexeme kind text)
    {r : List Char} {ls : List Lexeme} (hr : Ended r) (hrest : Lexes r ls) :
    Lexes (text.toList ++ r) ((kind, text) :: ls) := by
  obtain ⟨c, cs, htext, hsome⟩ := h
  have hstable := lexeme?_take_append hsome hr
  rw [List.take_length] at hstable
  have htoken : Lexes (c :: (cs ++ r))
      ((kind, String.ofList (c :: (cs ++ r).take cs.length)) :: ls) := by
    apply Lexes.token hstable
    rw [List.drop_left]
    exact hrest
  rw [List.take_left, ← htext, String.ofList_toList] at htoken
  rw [htext, List.cons_append]
  exact htoken

end PageForms.Token
