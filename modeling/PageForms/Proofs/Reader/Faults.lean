import PageForms.Proofs.Datum.DecEq
import PageForms.Proofs.Datum.Writable
import PageForms.Proofs.Reader.Origin

/-!
# How reading fails

Most of what is wrong with a text breaks the notation. Three things do not: a string with an escape
of a code point that lacks its digits, a decimal integer with more digits than can be read, and a
map with a key that would have to be named in a fault but cannot be written. `Stuck` says when one
token is refused for one of these reasons, and reading fails outside the notation exactly if a run
over the tokens before it gets to such a token.
-/

namespace PageForms

/-! ## Strings -/

namespace Text

/-- Between the quotes of a string stands `\u` without four hexadecimal digits behind it. -/
inductive HasBareEscape : List Char → Prop
  | here {rest : List Char}
      (hrest : ∀ a b c d more, rest = a :: b :: c :: d :: more → fourHex? a b c d = none) :
      HasBareEscape ('\\' :: 'u' :: rest)
  | behindCode {a b c d : Char} {n : Nat} {rest : List Char} (hcode : fourHex? a b c d = some n)
      (h : HasBareEscape rest) : HasBareEscape ('\\' :: 'u' :: a :: b :: c :: d :: rest)
  | behindEscape {c : Char} {rest : List Char} (hc : c ≠ 'u') (h : HasBareEscape rest) :
      HasBareEscape ('\\' :: c :: rest)
  | behindChar {c : Char} {rest : List Char} (hc : c ≠ '\\') (h : HasBareEscape rest) :
      HasBareEscape (c :: rest)

private theorem unquote_eq_error_iff {cs : List Char} {e : Fault} :
    unquote cs = .error e ↔ e = .emptyEscape ∧ HasBareEscape cs := by
  fun_induction unquote cs with
  | case1 =>
      constructor
      · intro h
        cases h
      · rintro ⟨-, h⟩
        cases h
  | case2 a b c d rest n hcode ih =>
      rw [map_eq_error_iff, ih]
      refine and_congr_right fun _ => ⟨.behindCode hcode, ?_⟩
      intro h
      cases h with
      | here hrest => simp [hrest a b c d rest rfl] at hcode
      | behindCode _ h => exact h
      | behindEscape hc _ => exact absurd rfl hc
      | behindChar hc _ => exact absurd rfl hc
  | case3 a b c d rest hcode =>
      have hhere : HasBareEscape ('\\' :: 'u' :: a :: b :: c :: d :: rest) := by
        apply HasBareEscape.here
        intro a' b' c' d' more heq
        cases heq
        exact hcode
      simp [hhere, eq_comm]
  | case4 rest hshort =>
      have hhere : HasBareEscape ('\\' :: 'u' :: rest) := by
        apply HasBareEscape.here
        intro a b c d more heq
        exact (hshort a b c d more heq).elim
      simp [hhere, eq_comm]
  | case5 c rest _ hu ih =>
      rw [map_eq_error_iff, ih]
      refine and_congr_right fun _ => ⟨.behindEscape hu, ?_⟩
      intro h
      cases h with
      | here => exact absurd rfl hu
      | behindCode => exact absurd rfl hu
      | behindEscape _ h => exact h
      | behindChar hc _ => exact absurd rfl hc
  | case6 c rest _ _ hplain ih =>
      rw [map_eq_error_iff, ih]
      refine and_congr_right fun _ => ⟨?_, ?_⟩
      · intro h
        refine .behindChar ?_ h
        rintro rfl
        cases rest with
        | nil => cases h
        | cons d rest => exact hplain d rest rfl rfl
      · intro h
        cases h with
        | here => exact (hplain _ _ rfl rfl).elim
        | behindCode => exact (hplain _ _ rfl rfl).elim
        | behindEscape => exact (hplain _ _ rfl rfl).elim
        | behindChar _ h => exact h

end Text

namespace Reader

/-! ## Tokens without a value -/

private theorem hexInt?_of_intDigits? {cs : List Char} {found : Bool × List Nat}
    (h : intDigits? cs = some found) : hexInt? cs = none := by
  have hx : Text.digitValue? 'x' = none := by decide
  have hX : Text.digitValue? 'X' = none := by decide
  unfold intDigits? at h
  unfold hexInt?
  simp only at h ⊢
  split
  · next x rest hcs =>
    rw [hcs] at h
    split
    · next hmark =>
      -- the digits would have to go on across the mark
      have hvalue : Text.digitValue? x = none := by
        rcases Bool.or_eq_true_iff.1 hmark with hmark | hmark
        · rwa [beq_iff_eq.1 hmark]
        · rwa [beq_iff_eq.1 hmark]
      have hzero : Text.digitValue? '0' = some 0 := by decide
      simp [Text.takeDigits, hzero, hvalue] at h
    · rfl
  · rfl

private theorem readAtom_eq_error_iff {text : String} (hne : text.toList ≠ []) {e : Fault} :
    readAtom text = .error e ↔ ∃ negative digits,
      intDigits? text.toList = some (negative, digits) ∧ digitLimit < digits.length ∧
        e = .tooManyDigits digits.length := by
  constructor
  · intro h
    unfold readAtom at h
    split at h
    · cases h
    split at h
    · cases h
    split at h
    · cases h
    split at h
    · cases h
    split at h
    · next negative digits hdigits =>
      unfold ofDigits at h
      split at h
      · cases h
      · cases h
        exact ⟨negative, digits, hdigits, by omega, rfl⟩
    split at h
    · cases h
    · unfold readName at h
      split at h
      · next hnil => exact absurd hnil hne
      · split at h
        · cases h
        · split at h <;> cases h
  · rintro ⟨negative, digits, hdigits, hlong, rfl⟩
    have hconstant : ∀ s : String, intDigits? s.toList = none → text ≠ s := by
      rintro s hs rfl
      rw [hs] at hdigits
      cases hdigits
    unfold readAtom
    rw [if_neg (hconstant "nil" (by decide)), if_neg (hconstant "true" (by decide)),
      if_neg (hconstant "false" (by decide)), hexInt?_of_intDigits? hdigits, hdigits]
    simp only [ofDigits]
    rw [if_neg (by omega)]

/-- The token should be a datum by itself, and has no value. -/
inductive Unreadable : Token → Fault → Prop
  | escape {t : Token} (hkind : t.kind = .string)
      (hescape : Text.HasBareEscape ((t.text.toList.drop 1).dropLast)) : Unreadable t .emptyEscape
  | digits {t : Token} {negative : Bool} {digits : List Nat} (hkind : t.kind = .atom)
      (hdigits : intDigits? t.text.toList = some (negative, digits))
      (hlong : digitLimit < digits.length) : Unreadable t (.tooManyDigits digits.length)

private theorem atomValue?_eq_error_iff {t : Token} (ht : t.text.toList ≠ []) {e : Fault} :
    atomValue? t = some (.error e) ↔ Unreadable t e := by
  constructor
  · intro h
    unfold atomValue? at h
    split at h
    · next hkind =>
      have hunquote := Text.unquote_eq_error_iff.1 (map_eq_error_iff.1 (Option.some.inj h))
      obtain ⟨rfl, hescape⟩ := hunquote
      exact .escape hkind hescape
    · cases h
    · cases h
    · cases h
    · next hkind =>
      obtain ⟨negative, digits, hdigits, hlong, rfl⟩ :=
        (readAtom_eq_error_iff ht).1 (Option.some.inj h)
      exact .digits hkind hdigits hlong
    · cases h
  · rintro (⟨hkind, hescape⟩ | ⟨hkind, hdigits, hlong⟩)
    · rw [atomValue?, hkind]
      simp only [Text.unquote_eq_error_iff.2 ⟨rfl, hescape⟩, Except.map_error]
    · rw [atomValue?, hkind]
      simp only [(readAtom_eq_error_iff ht).2 ⟨_, _, hdigits, hlong, rfl⟩]

/-! ## Maps -/

private theorem text?_eq_error_iff {v : Datum} {e : Fault} :
    v.text? = .error e ↔ e = .unwritableInteger ∧ v.writable = false := by
  unfold Datum.text? Datum.ifWritable
  cases v.writable <;> simp [eq_comm]

/-- Naming a key in a fault of the notation fails only if the key cannot be written. -/
theorem throw_text?_eq_error_iff {v : Datum} {fault : String → Fault} {α : Type} {e : Fault}
    (hfault : ∀ s, (fault s).isNotation = true) (he : e.isNotation = false) :
    (do throw (fault (← v.text?)) : Except Fault α) = .error e ↔
      e = .unwritableInteger ∧ v.writable = false := by
  cases htext : v.text? with
  | error e' =>
      obtain ⟨rfl, hv⟩ := text?_eq_error_iff.1 htext
      constructor
      · intro h
        cases h
        exact ⟨rfl, hv⟩
      · rintro ⟨rfl, -⟩
        rfl
  | ok s =>
      have hv := (Datum.writable_of_text? htext).1
      constructor
      · intro h
        cases h
        rw [hfault] at he
        cases he
      · rintro ⟨-, hv'⟩
        rw [hv] at hv'
        cases hv'

def Repeats (es : Entries) (key : Datum) : Prop :=
  key.hashable = false ∨ ∃ e ∈ es, key.equal e.1 = true

private theorem not_repeats {es : Entries} {key : Datum} (hhash : key.hashable = true)
    (hnew : ∀ e ∈ es, key.equal e.1 = false) : ¬Repeats es key := by
  rintro (h | ⟨e, he, h⟩)
  · rw [hhash] at h
    cases h
  · rw [hnew e he] at h
    cases h

/-- After more entries with keys of their own comes a key that repeats one or cannot be used, and
that cannot be written. -/
def MeetsUnwritable (acc : Entries) (xs : List Datum) : Prop :=
  ∃ es key value rest, xs = Entries.items es ++ key :: value :: rest ∧
    (∀ e ∈ es, e.1.hashable = true) ∧ (acc ++ es).Pairwise (fun e f => f.1.equal e.1 = false) ∧
    Repeats (acc ++ es) key ∧ key.writable = false

private theorem meetsUnwritable_of_repeats {acc : Entries} {k v : Datum} {rest : List Datum}
    (hacc : acc.Pairwise fun e f => f.1.equal e.1 = false) (hrepeats : Repeats acc k) :
    MeetsUnwritable acc (k :: v :: rest) ↔ k.writable = false := by
  constructor
  · rintro ⟨es, key, value, rest', heq, hes, hdistinct, -, hwritable⟩
    cases es with
    | nil =>
        cases heq
        exact hwritable
    | cons entry es =>
        obtain ⟨rfl, -⟩ := List.cons.inj heq
        have hnew := (List.pairwise_append.1 hdistinct).2.2
        exact absurd hrepeats
          (not_repeats (hes entry (by simp)) fun a ha => hnew a ha entry (by simp))
  · intro hwritable
    exact ⟨[], k, v, rest, rfl, by simp, by simpa using hacc, by simpa using hrepeats, hwritable⟩

private theorem meetsUnwritable_of_new {acc : Entries} {k v : Datum} {rest : List Datum}
    (hhash : k.hashable = true) (hnew : ∀ e ∈ acc, k.equal e.1 = false) :
    MeetsUnwritable acc (k :: v :: rest) ↔ MeetsUnwritable (acc ++ [(k, v)]) rest := by
  constructor
  · rintro ⟨es, key, value, rest', heq, hes, hdistinct, hrepeats, hwritable⟩
    cases es with
    | nil =>
        cases heq
        rw [List.append_nil] at hrepeats
        exact absurd hrepeats (not_repeats hhash hnew)
    | cons entry es =>
        rw [Entries.items_cons] at heq
        obtain ⟨rfl, hbehind⟩ := List.cons.inj heq
        obtain ⟨rfl, rfl⟩ := List.cons.inj hbehind
        refine ⟨es, key, value, rest', rfl, fun f hf => hes f (by simp [hf]), ?_, ?_, hwritable⟩
        · rwa [List.append_assoc]
        · rwa [List.append_assoc]
  · rintro ⟨es, key, value, rest', rfl, hes, hdistinct, hrepeats, hwritable⟩
    rw [List.append_assoc] at hdistinct hrepeats
    refine ⟨(k, v) :: es, key, value, rest', rfl, ?_, hdistinct, hrepeats, hwritable⟩
    intro entry hentry
    rcases List.mem_cons.1 hentry with rfl | hentry
    · exact hhash
    · exact hes entry hentry

private theorem pairUp_eq_error_iff {place : Text.Position} {acc : Entries} {xs : List Datum}
    {e : Fault} (hacc : acc.Pairwise fun e f => f.1.equal e.1 = false) (he : e.isNotation = false) :
    pairUp place acc xs = .error e ↔ e = .unwritableInteger ∧ MeetsUnwritable acc xs := by
  fun_induction pairUp place acc xs with
  | case1 acc =>
      constructor
      · intro h
        cases h
      · rintro ⟨-, es, key, value, rest, heq, -⟩
        simp at heq
  | case2 acc x =>
      constructor
      · intro h
        cases h
        cases he
      · rintro ⟨-, es, key, value, rest, heq, -⟩
        have hlength := congrArg List.length heq
        simp only [List.length_append, Entries.length_items, List.length_cons,
          List.length_nil] at hlength
        omega
  | case3 acc k v rest hhash =>
      rw [Bool.not_eq_true'] at hhash
      rw [throw_text?_eq_error_iff (fun _ => rfl) he, meetsUnwritable_of_repeats hacc (.inl hhash)]
  | case4 acc k v rest hhash hfound =>
      have hrepeats : Repeats acc k := by
        by_contra hnone
        rw [Repeats, not_or] at hnone
        rw [Entries.find?_isSome_eq_false_iff.2 (by simpa using hnone.2)] at hfound
        cases hfound
      rw [throw_text?_eq_error_iff (fun _ => rfl) he, meetsUnwritable_of_repeats hacc hrepeats]
  | case5 acc k v rest hhash hnew ih =>
      rw [Bool.not_eq_true, Bool.not_eq_false'] at hhash
      rw [Bool.not_eq_true, Entries.find?_isSome_eq_false_iff] at hnew
      have hacc' : (acc ++ [(k, v)]).Pairwise fun e f => f.1.equal e.1 = false := by
        simpa [List.pairwise_append] using And.intro hacc fun a b hab => hnew (a, b) hab
      rw [ih hacc', meetsUnwritable_of_new hhash hnew]

/-- The items between two braces pair up, and among the keys the first that cannot be used, or
stands there for the second time, is too long to be written. -/
def HasUnwritableKey (items : List Datum) : Prop :=
  items.length % 2 = 0 ∧ ∃ es key value rest,
    items = Entries.items es ++ key :: value :: rest ∧ Entries.Distinct es ∧ Repeats es key ∧
      key.writable = false

private theorem buildMap_eq_error_iff {place : Text.Position} {items : List Datum} {e : Fault}
    (he : e.isNotation = false) :
    buildMap place items = .error e ↔ e = .unwritableInteger ∧ HasUnwritableKey items := by
  unfold buildMap
  split
  · next hodd =>
    constructor
    · intro h
      cases h
      cases he
    · rintro ⟨-, heven, -⟩
      omega
  · next hodd =>
    rw [map_eq_error_iff, pairUp_eq_error_iff .nil he]
    refine and_congr_right fun _ => ⟨?_, ?_⟩
    · rintro ⟨es, key, value, rest, hitems, hhash, hdistinct, hrepeats, hwritable⟩
      exact ⟨by omega, es, key, value, rest, hitems, ⟨hhash, hdistinct⟩, hrepeats, hwritable⟩
    · rintro ⟨-, es, key, value, rest, hitems, hes, hrepeats, hwritable⟩
      exact ⟨es, key, value, rest, hitems, hes.hashable, hes.distinct, hrepeats, hwritable⟩

/-! ## Runs that get stuck -/

/-- The token is refused, though the notation allows it on this stack. -/
inductive Stuck : List Frame → Token → Fault → Prop
  | atom {stack : List Frame} {t : Token} {e : Fault} (h : Unreadable t e) : Stuck stack t e
  | map {opener t : Token} {items : List Datum} {stack : List Frame}
      (hkind : t.kind = .closeBrace) (h : HasUnwritableKey items.reverse) :
      Stuck (.group opener .map items :: stack) t .unwritableInteger

theorem Unreadable.isNotation {t : Token} {e : Fault} (h : Unreadable t e) :
    e.isNotation = false := by
  cases h <;> rfl

theorem Stuck.isNotation {stack : List Frame} {t : Token} {e : Fault} (h : Stuck stack t e) :
    e.isNotation = false := by
  cases h with
  | atom h => exact h.isNotation
  | map => rfl

private theorem step_eq_error_iff {stack : List Frame} {t : Token} (ht : t.text.toList ≠ [])
    {e : Fault} :
    step stack t = .error e ∧ e.isNotation = false ↔ Stuck stack t e := by
  constructor
  · rintro ⟨h, he⟩
    unfold step at h
    split at h
    · cases h
    split at h
    · cases h
    split at h
    · cases h
    split at h
    · next value hvalue =>
      rw [map_eq_error_iff.1 h] at hvalue
      exact .atom ((atomValue?_eq_error_iff ht).1 hvalue)
    split at h
    · next opener bracket items rest =>
      split at h
      · next hcloser =>
        have hclose := map_eq_error_iff.1 h
        cases bracket with
        | seq shape => cases hclose
        | map =>
            obtain ⟨rfl, hkey⟩ := (buildMap_eq_error_iff he).1 hclose
            exact .map hcloser hkey
      · cases h
        cases he
    · cases h
      cases he
  · intro h
    refine ⟨?_, h.isNotation⟩
    cases h with
    | atom h =>
        rw [step_of_atomValue? ((atomValue?_eq_error_iff ht).2 h)]
        rfl
    | @map opener _ items stack hkind h =>
        have hcloser : t.kind = Bracket.map.closer := hkind
        rw [step_of_closer hcloser]
        exact map_eq_error_iff.2 ((buildMap_eq_error_iff rfl).2 ⟨rfl, h⟩)

private theorem readAllFrom_eq_error_iff {stack : List Frame} {ts : List Token}
    (hts : ∀ t ∈ ts, t.text.toList ≠ []) {e : Fault} :
    (readAllFrom stack ts).result = .error e ∧ e.isNotation = false ↔
      ∃ front t rest stack' vs, ts = front ++ t :: rest ∧ Runs stack front stack' vs ∧
        Stuck stack' t e := by
  induction ts generalizing stack with
  | nil =>
      constructor
      · rintro ⟨h, he⟩
        unfold readAllFrom at h
        split at h
        · cases h
        · cases h
          unfold endFault at he
          split at he <;> cases he
      · rintro ⟨front, t, rest, -, -, heq, -⟩
        simp at heq
  | cons t ts ih =>
      have ht := hts t (by simp)
      have hrest : ∀ u ∈ ts, u.text.toList ≠ [] := fun u hu => hts u (by simp [hu])
      -- either the first token is the one, or the run goes on from the stack it leads to
      have hsplit : (∃ front u rest stack' vs, t :: ts = front ++ u :: rest ∧
            Runs stack front stack' vs ∧ Stuck stack' u e) ↔
          Stuck stack t e ∨ ∃ stack₁ out, step stack t = .ok (stack₁, out) ∧
            ∃ front u rest stack' vs, ts = front ++ u :: rest ∧ Runs stack₁ front stack' vs ∧
              Stuck stack' u e := by
        constructor
        · rintro ⟨front, u, rest, stack', vs, heq, hrun, hstuck⟩
          cases hrun with
          | nil =>
              obtain ⟨rfl, -⟩ := List.cons.inj heq
              exact .inl hstuck
          | cons hstep hrun =>
              obtain ⟨rfl, hbehind⟩ := List.cons.inj heq
              exact .inr ⟨_, _, hstep, _, u, rest, stack', _, hbehind, hrun, hstuck⟩
        · rintro (hstuck | ⟨stack₁, out, hstep, front, u, rest, stack', vs, rfl, hrun, hstuck⟩)
          · exact ⟨[], t, ts, stack, [], rfl, .nil, hstuck⟩
          · exact ⟨t :: front, u, rest, stack', _, rfl, .cons hstep hrun, hstuck⟩
      rw [hsplit, ← step_eq_error_iff ht]
      unfold readAllFrom
      cases hstep : step stack t with
      | error e' => simp
      | ok next =>
          obtain ⟨stack₁, out⟩ := next
          cases out with
          | none => simp [ih hrest]
          | some v => simp [map_eq_error_iff, ih hrest]

/-! ## Texts -/

/-- The lexer only meets characters that no token starts with. -/
theorem isNotation_of_lexAt {place : Text.Position} {cs : List Char} {e : Fault}
    (h : Token.lexAt place cs = .error e) : e.isNotation = true := by
  fun_induction Token.lexAt place cs with
  | case1 => cases h
  | case2 =>
      cases h
      rfl
  | case3 _ _ _ _ _ _ _ e' hrest ih =>
      cases h
      exact ih hrest
  | case4 => cases h
  | case5 => cases h

private theorem toList_ne_nil_of_lex {text : String} {ts : List Token}
    (h : Token.lex text = .ok ts) :
    ∀ t ∈ ts, t.text.toList ≠ [] := by
  intro t ht
  have hlexes := Token.lexes_iff.2 ⟨ts, h, rfl⟩
  obtain ⟨c, cs, htext, -⟩ := hlexes.isLexeme (Token.lexeme t) (List.mem_map_of_mem ht)
  intro hnil
  rw [show (Token.lexeme t).2 = t.text from rfl, hnil] at htext
  cases htext

/-- Reading a text fails outside the notation exactly if its tokens lead to one that is refused,
and then it is the fault of that token. -/
theorem read_eq_error_iff {text : String} {e : Fault} :
    read text = .error e ∧ e.isNotation = false ↔ ∃ ts front t rest stack vs,
      Token.lex text = .ok ts ∧ ts = front ++ t :: rest ∧ Runs [] front stack vs ∧
        Stuck stack t e := by
  unfold read
  cases hlex : Token.lex text with
  | error e' =>
      constructor
      · rintro ⟨h, he⟩
        cases h
        rw [isNotation_of_lexAt hlex] at he
        cases he
      · rintro ⟨ts, _, _, _, _, _, hts, -⟩
        cases hts
  | ok ts =>
      rw [ok_bind, readAll, readAllFrom_eq_error_iff (toList_ne_nil_of_lex hlex)]
      constructor
      · rintro ⟨front, t, rest, stack, vs, hsplit, hrun, hstuck⟩
        exact ⟨ts, front, t, rest, stack, vs, rfl, hsplit, hrun, hstuck⟩
      · rintro ⟨_, front, t, rest, stack, vs, hts, hsplit, hrun, hstuck⟩
        cases hts
        exact ⟨front, t, rest, stack, vs, hsplit, hrun, hstuck⟩

theorem Stuck.isRefusal {stack : List Frame} {t : Token} {e : Fault} (h : Stuck stack t e) :
    e.isRefusal = true := by
  cases h with
  | atom h => cases h <;> rfl
  | map => rfl

/-- A text that cannot be read breaks the notation or is refused. -/
theorem isNotation_or_isRefusal_of_read {text : String} {e : Fault} (h : read text = .error e) :
    e.isNotation = true ∨ e.isRefusal = true := by
  cases he : e.isNotation with
  | true => exact .inl rfl
  | false =>
      obtain ⟨_, _, _, _, _, _, _, _, _, hstuck⟩ := read_eq_error_iff.1 ⟨h, he⟩
      exact .inr hstuck.isRefusal

/-- A text has data, breaks the notation or is refused; and it is refused exactly if the data in
front of some token lead to one that the notation allows there and that has no value. -/
theorem read_refuses_iff_stuck (text : String) :
    ((∃ vs, read text = .ok vs) ∨
      ∃ e, read text = .error e ∧ (e.isNotation = true ∨ e.isRefusal = true)) ∧
    ∀ e, (read text = .error e ∧ e.isNotation = false) ↔ ∃ ts front t rest stack vs,
      Token.lex text = .ok ts ∧ ts = front ++ t :: rest ∧ Runs [] front stack vs ∧
        Stuck stack t e := by
  refine ⟨?_, fun e => read_eq_error_iff⟩
  cases hread : read text with
  | ok vs => exact .inl ⟨vs, rfl⟩
  | error e => exact .inr ⟨e, rfl, isNotation_or_isRefusal_of_read hread⟩

/-- A string that spells a code point with two digits does not break the notation, and is
refused. -/
theorem read_refuses_short_escape :
    ∃ e, read "(p \x22\\u12\x22)" = .error e ∧ e.isNotation = false :=
  ⟨.emptyEscape, by decide +kernel, rfl⟩

end Reader

end PageForms
