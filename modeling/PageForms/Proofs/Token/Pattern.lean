import PageForms.Proofs.Token.Concatenation

/-!
# The patterns of tokens

`Matches` says, pattern by pattern, which texts are tokens of which kind and which ones separate
tokens. The lexer cuts off the longest front of a text that matches anything, and it finds none
exactly if nothing matches: patterns of two kinds never match at the same place.
-/

namespace PageForms.Token

/-- What stands between the quotes of a string: a backslash takes the next character with it, and no
other character is a quote. -/
inductive IsQuotedBody : List Char → Prop
  | nil : IsQuotedBody []
  | plain {c : Char} {cs : List Char} (hquote : c ≠ '\x22') (hbackslash : c ≠ '\\')
      (h : IsQuotedBody cs) : IsQuotedBody (c :: cs)
  | escaped {c : Char} {cs : List Char} (h : IsQuotedBody cs) : IsQuotedBody ('\\' :: c :: cs)

/-- The tokens that are always written alike. -/
def fixedTexts : List (TokenKind × List Char) :=
  [(.openSet, ['#', '{']), (.openFn, ['#', '(']), (.discard, ['#', '_']),
   (.varQuote, ['#', '\x27']), (.openParen, ['(']), (.closeParen, [')']), (.openBracket, ['[']),
   (.closeBracket, [']']), (.openBrace, ['{']), (.closeBrace, ['}']), (.quote, ['\x27']),
   (.deref, ['@'])]

/-- The characters are a token of this kind, or, without a kind, separators or a comment. -/
inductive Matches : Option TokenKind → List Char → Prop
  | separators {c : Char} {cs : List Char} (h : ∀ d ∈ c :: cs, isSeparator d = true) :
      Matches none (c :: cs)
  | comment {cs : List Char} (h : ∀ d ∈ cs, d ≠ '\n') : Matches none (';' :: cs)
  | string {body : List Char} (h : IsQuotedBody body) :
      Matches (some .string) ('\x22' :: (body ++ ['\x22']))
  | regex {body : List Char} (h : IsQuotedBody body) :
      Matches (some .regex) ('#' :: '\x22' :: (body ++ ['\x22']))
  | fixed {kind : TokenKind} {cs : List Char} (h : (kind, cs) ∈ fixedTexts) :
      Matches (some kind) cs
  | metadata {cs : List Char} (hne : cs ≠ []) (h : ∀ d ∈ cs, isAtomChar d = true) :
      Matches (some .metadata) ('^' :: cs)
  | characterName {name : String} (h : name ∈ characterNames) :
      Matches (some .character) ('\\' :: name.toList)
  | characterCode {ds : List Char} (hlength : ds.length = 4)
      (h : ∀ d ∈ ds, (Text.hexValue? d).isSome = true) :
      Matches (some .character) ('\\' :: 'u' :: ds)
  | character (c : Char) : Matches (some .character) ['\\', c]
  | atom {c : Char} {cs : List Char} (hc : isAtomStart c = true)
      (h : ∀ d ∈ cs, isAtomChar d = true) : Matches (some .atom) (c :: cs)

/-- Nothing at the front of the text matches. -/
def Unmatched (cs : List Char) : Prop :=
  ∀ kind? piece, piece <+: cs → ¬Matches kind? piece

/-- The longest front of a text that matches anything, and what it is. -/
structure IsLongest (kind? : Option TokenKind) (piece cs : List Char) : Prop where
  front : piece <+: cs
  fits : Matches kind? piece
  longest : ∀ other? other, other <+: cs → Matches other? other → other.length ≤ piece.length

/-! ## What matches is found -/

private theorem lexeme?_string (cs : List Char) :
    lexeme? '\x22' cs = (closingQuote? cs).map (some .string, ·) := rfl

private theorem lexeme?_regex (cs : List Char) :
    lexeme? '#' ('\x22' :: cs) = (closingQuote? cs).map fun n => (some .regex, n + 1) := rfl

private theorem lexeme?_character (cs : List Char) :
    lexeme? '\\' cs = (characterLength? cs).map (some .character, ·) := rfl

theorem IsQuotedBody.closingQuote? {body : List Char} (h : IsQuotedBody body) (r : List Char) :
    closingQuote? (body ++ '\x22' :: r) = some (body.length + 1) := by
  induction h with
  | nil => rfl
  | plain hquote hbackslash _ ih =>
      rw [List.cons_append, closingQuote?_cons _ hquote hbackslash, ih]
      rfl
  | escaped _ ih =>
      rw [List.cons_append, List.cons_append, Token.closingQuote?, ih]
      rfl

/-- A front whose characters all pass a test is part of the run of such characters. -/
theorem length_le_takeWhile {p : Char → Bool} {front cs : List Char} (hfront : front <+: cs)
    (h : ∀ d ∈ front, p d = true) : front.length ≤ (cs.takeWhile p).length := by
  obtain ⟨rest, rfl⟩ := hfront
  rw [List.takeWhile_append_of_pos h, List.length_append]
  omega

private theorem one_le_characterLength? (c : Char) (cs : List Char) :
    ∃ n, characterLength? (c :: cs) = some n ∧ 1 ≤ n := by
  unfold characterLength?
  split
  · next name hfind =>
    refine ⟨name.length, rfl, ?_⟩
    have hall : characterNames.all (fun name => 1 ≤ name.length) = true := by decide
    exact of_decide_eq_true (List.all_eq_true.1 hall name (List.mem_of_find?_eq_some hfind))
  · split
    · next heq => cases heq
    · next heq =>
      split
      · exact ⟨5, rfl, by decide⟩
      · exact ⟨1, rfl, by decide⟩
    · exact ⟨1, rfl, by decide⟩

private theorem characterLength?_of_name {name : String} (h : name ∈ characterNames)
    (r : List Char) :
    characterLength? (name.toList ++ r) = some name.length := by
  unfold characterLength?
  rw [find?_characterNames_append h]

private theorem characterLength?_of_code {ds : List Char} (hlength : ds.length = 4)
    (h : ∀ d ∈ ds, (Text.hexValue? d).isSome = true) (r : List Char) :
    characterLength? ('u' :: (ds ++ r)) = some 5 := by
  have htake : (ds ++ r).take 4 = ds := by
    rw [← hlength]
    exact List.take_left
  unfold characterLength?
  rw [find?_characterNames_u]
  simp only
  rw [if_pos]
  rw [htake, List.all_eq_true.2 h, Bool.and_true, List.length_append, decide_eq_true_eq]
  omega

/-- Where a text starts with something that matches, the lexer finds a lexeme of that kind which is
no shorter. -/
theorem lexeme?_of_matches {kind? : Option TokenKind} {piece cs : List Char} {c : Char}
    (h : Matches kind? piece) (hfront : piece <+: c :: cs) :
    ∃ n, lexeme? c cs = some (kind?, n) ∧ piece.length ≤ n + 1 := by
  cases h with
  | separators hall =>
      obtain ⟨rfl, htail⟩ := List.cons_prefix_cons.1 hfront
      obtain ⟨hc, hcs⟩ := List.forall_mem_cons.1 hall
      refine ⟨_, by unfold lexeme?; rw [if_pos hc], ?_⟩
      exact Nat.succ_le_succ (length_le_takeWhile htail hcs)
  | comment hall =>
      obtain ⟨rfl, htail⟩ := List.cons_prefix_cons.1 hfront
      refine ⟨_, rfl, ?_⟩
      exact Nat.succ_le_succ (length_le_takeWhile htail fun d hd => by simpa using hall d hd)
  | @string body hbody =>
      obtain ⟨rfl, rest, rfl⟩ := List.cons_prefix_cons.1 hfront
      refine ⟨body.length + 1, ?_, by simp⟩
      rw [List.append_assoc, lexeme?_string, List.singleton_append, hbody.closingQuote? rest]
      rfl
  | @regex body hbody =>
      obtain ⟨rfl, rest, rfl⟩ := List.cons_prefix_cons.1 hfront
      refine ⟨body.length + 2, ?_, by simp⟩
      rw [List.cons_append, List.append_assoc, lexeme?_regex, List.singleton_append,
        hbody.closingQuote? rest]
      rfl
  | fixed hmem =>
      obtain ⟨rest, hrest⟩ := hfront
      simp only [fixedTexts, List.mem_cons, Prod.mk.injEq, List.not_mem_nil, or_false] at hmem
      rcases hmem with ⟨rfl, rfl⟩ | ⟨rfl, rfl⟩ | ⟨rfl, rfl⟩ | ⟨rfl, rfl⟩ | ⟨rfl, rfl⟩ |
        ⟨rfl, rfl⟩ | ⟨rfl, rfl⟩ | ⟨rfl, rfl⟩ | ⟨rfl, rfl⟩ | ⟨rfl, rfl⟩ | ⟨rfl, rfl⟩ | ⟨rfl, rfl⟩
      all_goals
        cases hrest
        exact ⟨_, rfl, Nat.le_refl _⟩
  | @metadata body hne hall =>
      obtain ⟨rfl, htail⟩ := List.cons_prefix_cons.1 hfront
      have hlength := length_le_takeWhile htail hall
      have hpos : (cs.takeWhile isAtomChar).length ≠ 0 := by
        have := List.length_pos_iff.2 hne
        omega
      exact ⟨_, if_neg hpos, Nat.succ_le_succ hlength⟩
  | @characterName name hname =>
      obtain ⟨rfl, rest, rfl⟩ := List.cons_prefix_cons.1 hfront
      refine ⟨name.length, ?_, by simp [String.length_toList]⟩
      rw [lexeme?_character, characterLength?_of_name hname rest]
      rfl
  | characterCode hlength hhex =>
      obtain ⟨rfl, rest, rfl⟩ := List.cons_prefix_cons.1 hfront
      refine ⟨5, ?_, by simp [hlength]⟩
      rw [List.cons_append, lexeme?_character, characterLength?_of_code hlength hhex rest]
      rfl
  | character d =>
      obtain ⟨rfl, rest, rfl⟩ := List.cons_prefix_cons.1 hfront
      obtain ⟨n, hn, hpos⟩ := one_le_characterLength? d rest
      refine ⟨n, ?_, Nat.succ_le_succ hpos⟩
      rw [List.singleton_append, lexeme?_character, hn]
      rfl
  | atom hc hall =>
      obtain ⟨rfl, htail⟩ := List.cons_prefix_cons.1 hfront
      refine ⟨_, lexeme?_of_isAtomStart hc cs, ?_⟩
      exact Nat.succ_le_succ (length_le_takeWhile htail hall)

/-! ## What is found matches -/

private theorem isQuotedBody_of_closingQuote? {cs : List Char} {n : Nat}
    (h : closingQuote? cs = some n) :
    ∃ body, IsQuotedBody body ∧ cs.take n = body ++ ['\x22'] := by
  fun_induction closingQuote? cs generalizing n with
  | case1 => cases h
  | case2 =>
      cases h
      exact ⟨[], .nil, rfl⟩
  | case3 c cs ih =>
      obtain ⟨m, hm, rfl⟩ := Option.map_eq_some_iff.1 h
      obtain ⟨body, hbody, htake⟩ := ih hm
      exact ⟨'\\' :: c :: body, .escaped hbody, by simp [htake]⟩
  | case4 c cs hquote hbackslash ih =>
      obtain ⟨m, hm, rfl⟩ := Option.map_eq_some_iff.1 h
      obtain ⟨body, hbody, htake⟩ := ih hm
      have hc : c ≠ '\\' := by
        rintro rfl
        cases cs with
        | nil => cases hm
        | cons d ds => exact hbackslash d ds rfl rfl
      exact ⟨c :: body, .plain hquote hc hbody, by simp [htake]⟩

private theorem matches_of_characterLength? {cs : List Char} {n : Nat}
    (h : characterLength? cs = some n) :
    Matches (some .character) ('\\' :: cs.take n) := by
  unfold characterLength? at h
  split at h
  · next name hfind =>
    cases h
    have hfound := List.find?_some hfind
    have htake := List.prefix_iff_eq_take.1 (List.isPrefixOf_iff_prefix.1 hfound)
    rw [String.length_toList] at htake
    rw [← htake]
    exact .characterName (List.mem_of_find?_eq_some hfind)
  · split at h
    · cases h
    · next rest _ =>
      split at h
      · next hhex =>
        cases h
        simp only [Bool.and_eq_true, decide_eq_true_eq, List.all_eq_true] at hhex
        refine .characterCode ?_ hhex.2
        rw [List.length_take]
        exact Nat.min_eq_left hhex.1
      · cases h
        exact .character 'u'
    · next hne _ =>
      cases h
      obtain ⟨c, rest, rfl⟩ := List.exists_cons_of_ne_nil hne
      exact .character c

theorem take_length_takeWhile (p : Char → Bool) (cs : List Char) :
    cs.take (cs.takeWhile p).length = cs.takeWhile p :=
  (List.prefix_iff_eq_take.1 (List.takeWhile_prefix p)).symm

/-- A lexeme that the lexer finds matches the pattern of its kind. -/
theorem matches_of_lexeme? {kind? : Option TokenKind} {c : Char} {cs : List Char} {n : Nat}
    (h : lexeme? c cs = some (kind?, n)) : Matches kind? (c :: cs.take n) := by
  have htake (p : Char → Bool) :
      ∀ d ∈ cs.take (cs.takeWhile p).length, p d = true := by
    rw [take_length_takeWhile]
    exact List.all_eq_true.1 List.all_takeWhile
  unfold lexeme? at h
  split at h
  · next hc =>
    cases h
    exact .separators (List.forall_mem_cons.2 ⟨hc, htake _⟩)
  · split at h
    case h_1 =>
      cases h
      exact .comment fun d hd => by simpa using htake (· != '\n') d hd
    case h_2 =>
      obtain ⟨m, hm, heq⟩ := Option.map_eq_some_iff.1 h
      cases heq
      obtain ⟨body, hbody, hbodyTake⟩ := isQuotedBody_of_closingQuote? hm
      rw [hbodyTake]
      exact .string hbody
    case h_3 =>
      split at h
      · obtain ⟨m, hm, heq⟩ := Option.map_eq_some_iff.1 h
        cases heq
        obtain ⟨body, hbody, hbodyTake⟩ := isQuotedBody_of_closingQuote? hm
        rw [List.take_succ_cons, hbodyTake]
        exact .regex hbody
      all_goals cases h
      all_goals exact .fixed (by simp [fixedTexts])
    case h_4 =>
      simp only at h
      split at h
      · cases h
      · next hlength =>
        cases h
        refine .metadata ?_ (htake _)
        rw [← List.length_pos_iff, List.length_take]
        have := (List.takeWhile_prefix isAtomChar (l := cs)).length_le
        omega
    case h_5 =>
      obtain ⟨m, hm, heq⟩ := Option.map_eq_some_iff.1 h
      cases heq
      exact matches_of_characterLength? hm
    case h_14 =>
      split at h
      · next hstart =>
        cases h
        exact .atom hstart (htake _)
      · cases h
    all_goals cases h
    all_goals exact .fixed (by simp [fixedTexts])

/-! ## The longest match -/

theorem isLongest_of_lexeme? {kind? : Option TokenKind} {c : Char} {cs : List Char} {n : Nat}
    (h : lexeme? c cs = some (kind?, n)) : IsLongest kind? (c :: cs.take n) (c :: cs) := by
  refine ⟨?_, matches_of_lexeme? h, ?_⟩
  · rw [List.cons_prefix_cons]
    exact ⟨rfl, List.take_prefix n cs⟩
  · intro other? other hfront hother
    obtain ⟨m, hm, hle⟩ := lexeme?_of_matches hother hfront
    rw [h] at hm
    cases hm
    have hlength := hfront.length_le
    rw [List.length_cons] at hlength ⊢
    rw [List.length_take]
    omega

theorem unmatched_of_lexeme? {c : Char} {cs : List Char} (h : lexeme? c cs = none) :
    Unmatched (c :: cs) := by
  intro kind? piece hfront hpiece
  obtain ⟨n, hn, -⟩ := lexeme?_of_matches hpiece hfront
  rw [h] at hn
  cases hn

end PageForms.Token
