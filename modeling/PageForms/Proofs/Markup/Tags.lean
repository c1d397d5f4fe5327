import PageForms.Proofs.Markup.Scanner

/-!
# Tags as they are written

Tags with names in small letters and digits are scanned as what they were written for: an opening
tag as its name and its attributes, with references in the values replaced, a closing tag as its
name. Behind the opening tag of a `script` or `style` element a text without `<` is kept as it is.
-/

namespace PageForms.Scanner

open Text (isBlank isLetter)

/-! ## Names -/

def smallLetters : List Char := "abcdefghijklmnopqrstuvwxyz".toList

def tagChars : List Char := smallLetters ++ "0123456789".toList

def attributeChars : List Char := '-' :: tagChars

def isNameOf (chars : List Char) (name : String) : Bool :=
  match name.toList with
  | [] => false
  | c :: cs => smallLetters.contains c && cs.all chars.contains

def isTagName (name : String) : Bool :=
  isNameOf tagChars name

def isAttributeName (name : String) : Bool :=
  isNameOf attributeChars name

private theorem isNameOf_iff {chars : List Char} {name : String} :
    isNameOf chars name = true ↔
      ∃ c cs, name.toList = c :: cs ∧ c ∈ smallLetters ∧ ∀ d ∈ cs, d ∈ chars := by
  unfold isNameOf
  cases name.toList with
  | nil => simp
  | cons c cs =>
      rw [Bool.and_eq_true, List.contains_iff_mem, List.all_eq_true]
      constructor
      · rintro ⟨hc, hcs⟩
        exact ⟨c, cs, rfl, hc, fun d hd => List.contains_iff_mem.1 (hcs d hd)⟩
      · rintro ⟨_, _, heq, hc, hcs⟩
        cases heq
        exact ⟨hc, fun d hd => List.contains_iff_mem.2 (hcs d hd)⟩

/-- All characters of a name are of one kind, the first one included. -/
theorem mem_of_isNameOf {chars : List Char} {name : String} (h : isNameOf chars name = true)
    (hchars : ∀ c ∈ smallLetters, c ∈ chars) : ∀ c ∈ name.toList, c ∈ chars := by
  obtain ⟨c, cs, hname, hc, hcs⟩ := isNameOf_iff.1 h
  rw [hname]
  intro d hd
  rcases List.mem_cons.1 hd with rfl | hd
  · exact hchars d hc
  · exact hcs d hd

private theorem mem_of_isTagName {tag : String} (h : isTagName tag = true) :
    ∀ c ∈ tag.toList, c ∈ tagChars := by
  unfold isTagName at h
  apply mem_of_isNameOf h
  intro c hc
  exact List.mem_append_left _ hc

private theorem mem_of_isAttributeName {name : String} (h : isAttributeName name = true) :
    ∀ c ∈ name.toList, c ∈ attributeChars := by
  unfold isAttributeName at h
  apply mem_of_isNameOf h
  intro c hc
  exact List.mem_cons_of_mem _ (List.mem_append_left _ hc)

private theorem isLetter_of_mem {c : Char} (h : c ∈ smallLetters) : isLetter c = true := by
  have hall : smallLetters.all isLetter = true := by decide
  exact List.all_eq_true.1 hall c h

/-- What the scanner tells of a character of a tag's name. -/
theorem tagChars_spec {c : Char} (h : c ∈ tagChars) :
    isTagChar c = true ∧ isCloseChar c = true := by
  have hall : tagChars.all (fun c => isTagChar c && isCloseChar c) = true := by decide
  simpa using List.all_eq_true.1 hall c h

/-- What the scanner tells of a character of a name: it continues the name, ends no part of a tag
and is its own small letter. -/
structure IsPlain (c : Char) : Prop where
  nameChar : isNameChar c = true
  not_blank : isBlank c = false
  ne_slash : c ≠ '/'
  ne_tagEnd : c ≠ '>'
  ne_equals : c ≠ '='
  ne_dotted : c ≠ 'İ'
  ne_sigma : c ≠ 'Σ'
  lower : Text.lowerChar c = c

private theorem isPlain_of_mem {c : Char} (h : c ∈ attributeChars) : IsPlain c := by
  have hall : attributeChars.all (fun c => isNameChar c && !isBlank c && c != '/' && c != '>' &&
      c != '=' && c != 'İ' && c != 'Σ' && Text.lowerChar c == c) = true := by decide
  have hc := List.all_eq_true.1 hall c h
  simp only [Bool.and_eq_true, Bool.not_eq_true', bne_iff_ne, beq_iff_eq] at hc
  obtain ⟨⟨⟨⟨⟨⟨⟨hname, hblank⟩, hslash⟩, hend⟩, hequals⟩, hdotted⟩, hsigma⟩, hlower⟩ := hc
  exact ⟨hname, hblank, hslash, hend, hequals, hdotted, hsigma, hlower⟩

private theorem isPlain_of_isTagName {tag : String} (h : isTagName tag = true) :
    ∀ c ∈ tag.toList, IsPlain c := by
  intro c hc
  exact isPlain_of_mem (List.mem_cons_of_mem _ (mem_of_isTagName h c hc))

private theorem isPlain_of_isAttributeName {name : String} (h : isAttributeName name = true) :
    ∀ c ∈ name.toList, IsPlain c := by
  intro c hc
  exact isPlain_of_mem (mem_of_isAttributeName h c hc)

private theorem exists_cons_of_isAttributeName {name : String} (h : isAttributeName name = true) :
    ∃ c cs, name.toList = c :: cs ∧ IsPlain c ∧ ∀ d ∈ cs, IsPlain d := by
  obtain ⟨c, cs, hname, -, -⟩ := isNameOf_iff.1 h
  have hplain := isPlain_of_isAttributeName h
  rw [hname, List.forall_mem_cons] at hplain
  exact ⟨c, cs, hname, hplain⟩

private theorem lowerFrom_eq_self {cs : List Char} (h : ∀ c ∈ cs, IsPlain c) (before : List Char) :
    Text.lowerFrom before cs = cs := by
  induction cs generalizing before with
  | nil => rfl
  | cons c cs ih =>
      have hc := h c (by simp)
      rw [Text.lowerFrom, if_neg hc.ne_dotted, if_neg hc.ne_sigma, hc.lower,
        ih fun d hd => h d (by simp [hd])]

private theorem lower_eq_self {name : String} (h : ∀ c ∈ name.toList, IsPlain c) :
    Text.lower name = name := by
  rw [Text.lower, lowerFrom_eq_self h, String.ofList_toList]

private theorem lower_of_isTagName {tag : String} (h : isTagName tag = true) :
    Text.lower tag = tag :=
  lower_eq_self (isPlain_of_isTagName h)

/-! ## Closing tags -/

private theorem plainCloseTag?_append {tag : String} (h : isTagName tag = true) (rest : List Char) :
    plainCloseTag? (tag.toList ++ '>' :: rest) = some (tag.toList, rest) := by
  obtain ⟨c, cs, hname, hc, hcs⟩ := isNameOf_iff.1 h
  have hblank : ¬ isBlank c = true := by
    simp [(isPlain_of_isTagName h c (by simp [hname])).not_blank]
  have hspan : (cs ++ '>' :: rest).takeWhile isCloseChar = cs ∧
      (cs ++ '>' :: rest).dropWhile isCloseChar = '>' :: rest := by
    apply span_append fun d hd => (tagChars_spec (hcs d hd)).2
    intro d hd
    cases hd
    rfl
  have hend : ('>' :: rest).dropWhile isBlank = '>' :: rest :=
    List.dropWhile_cons_of_neg (by decide)
  rw [hname, List.cons_append, plainCloseTag?, List.dropWhile_cons_of_neg hblank]
  simp only [isLetter_of_mem hc, if_true, hspan.1, hspan.2, hend]

theorem toList_closeTag (tag : String) :
    (Node.closeTag tag).toList = '<' :: '/' :: (tag.toList ++ ['>']) := by
  simp [Node.closeTag]

theorem scans_closeTag {tag : String} (h : isTagName tag = true) :
    Scans (Node.closeTag tag).toList [.close tag] := by
  have hpiece : ∀ rest, piece ('/' :: (tag.toList ++ ['>']) ++ rest) =
      .ok ⟨[.close tag], none, rest⟩ := by
    intro rest
    have hclose : closeTag? (tag.toList ++ '>' :: rest) = some ⟨[.close tag], none, rest⟩ := by
      unfold closeTag?
      rw [plainCloseTag?_append h]
      simp only [String.ofList_toList, lower_of_isTagName h]
    rw [List.cons_append, List.append_assoc, List.singleton_append, piece]
    simp only [hclose]
    rfl
  rw [toList_closeTag]
  exact scans_of_piece hpiece

/-! ## Attributes -/

def assignment : Option String → List Char
  | none => []
  | some value => '=' :: '\x22' :: ((Node.escapeValue value).toList ++ ['\x22'])

def attributesText (attrs : Attributes) : List Char :=
  attrs.flatMap fun a => ' ' :: (a.1.toList ++ assignment a.2)

/-- An attribute as it is found in a tag, with the references in its value. -/
def writtenAttribute (a : String × Option String) : List Char × Option (List Char) :=
  (a.1.toList, a.2.map fun value => (Node.escapeValue value).toList)

private theorem attributesText_cons (a : String × Option String) (attrs : Attributes)
    (rest : List Char) :
    attributesText (a :: attrs) ++ '>' :: rest =
      ' ' :: (a.1.toList ++ (assignment a.2 ++ (attributesText attrs ++ '>' :: rest))) := by
  simp [attributesText]

/-- Behind a name comes the blank before the next attribute or the end of the tag. -/
theorem head_attributesText {attrs : Attributes} {rest : List Char} {d : Char}
    (h : d ∈ (attributesText attrs ++ '>' :: rest).head?) : d = ' ' ∨ d = '>' := by
  cases attrs with
  | nil =>
      cases h
      exact .inr rfl
  | cons a attrs =>
      rw [attributesText_cons] at h
      cases h
      exact .inl rfl

theorem toList_openTag (tag : String) (attrs : Attributes) :
    (Node.openTag tag attrs).toList = '<' :: (tag.toList ++ (attributesText attrs ++ ['>'])) := by
  have hattrs : (Text.concat (attrs.map Node.attributeText)).toList = attributesText attrs := by
    induction attrs with
    | nil => rfl
    | cons a attrs ih =>
        obtain ⟨name, value⟩ := a
        cases value <;>
          simp [Text.concat, ih, Node.attributeText, attributesText, assignment]
  simp [Node.openTag, hattrs]

private theorem skipGap_cons_of_blank {c : Char} (h : isBlank c = true) (cs : List Char) :
    skipGap (c :: cs) = skipGap cs := by
  rw [skipGap.eq_def]
  split
  · next heq => cases heq
  · next heq =>
    obtain ⟨rfl, -⟩ := List.cons.inj heq
    exact absurd h (by decide)
  · next heq =>
    cases heq
    rw [h, Bool.true_or, if_pos rfl]

private theorem skipGap_cons_of_not_blank {c : Char} (hblank : isBlank c = false) (hslash : c ≠ '/')
    (cs : List Char) : skipGap (c :: cs) = c :: cs := by
  rw [skipGap.eq_def]
  split
  · next heq => cases heq
  · next heq => exact absurd (List.cons.inj heq).1 hslash
  · next heq =>
    cases heq
    rw [hblank, Bool.false_or, if_neg (by simpa using hslash)]

private theorem skipGap_tagEnd (rest : List Char) : skipGap ('>' :: rest) = '>' :: rest :=
  skipGap_cons_of_not_blank (by decide) (by decide) rest

private theorem skipGap_attributesText_cons {a : String × Option String}
    (ha : isAttributeName a.1 = true) (attrs : Attributes) (rest : List Char) :
    skipGap (attributesText (a :: attrs) ++ '>' :: rest) =
      a.1.toList ++ (assignment a.2 ++ (attributesText attrs ++ '>' :: rest)) := by
  obtain ⟨c, cs, hcs, hc, -⟩ := exists_cons_of_isAttributeName ha
  rw [attributesText_cons, skipGap_cons_of_blank (by decide), hcs, List.cons_append,
    skipGap_cons_of_not_blank hc.not_blank hc.ne_slash]

private theorem skipGap_attributesText_ne {attrs : Attributes}
    (h : ∀ a ∈ attrs, isAttributeName a.1 = true) (rest cs : List Char) :
    skipGap (attributesText attrs ++ '>' :: rest) ≠ '/' :: cs := by
  intro heq
  cases attrs with
  | nil =>
      rw [attributesText, List.flatMap_nil, List.nil_append, skipGap_tagEnd] at heq
      exact absurd (List.cons.inj heq).1 (by decide)
  | cons a attrs =>
      have ha := h a (by simp)
      obtain ⟨c, name, hname, hc, -⟩ := exists_cons_of_isAttributeName ha
      rw [skipGap_attributesText_cons ha, hname, List.cons_append] at heq
      exact hc.ne_slash (List.cons.inj heq).1

/-- What is skipped before attributes is the blank before the first one. -/
theorem exists_gap {attrs : Attributes} (h : ∀ a ∈ attrs, isAttributeName a.1 = true)
    (rest : List Char) :
    ∃ gap, attributesText attrs ++ '>' :: rest =
        gap ++ skipGap (attributesText attrs ++ '>' :: rest) ∧ (attrs ≠ [] → gap = [' ']) := by
  cases attrs with
  | nil =>
      refine ⟨[], ?_, fun hne => absurd rfl hne⟩
      exact (skipGap_tagEnd rest).symm
  | cons a attrs =>
      refine ⟨[' '], ?_, fun _ => rfl⟩
      rw [skipGap_attributesText_cons (h a (by simp)), attributesText_cons, List.singleton_append]

private theorem assigned?_none {attrs : Attributes} (h : ∀ a ∈ attrs, isAttributeName a.1 = true)
    (rest : List Char) : assigned? (attributesText attrs ++ '>' :: rest) = none := by
  have hsigns : ((attributesText attrs ++ '>' :: rest).dropWhile isBlank).takeWhile (· == '=') =
      [] := by
    cases attrs with
    | nil => rfl
    | cons a attrs =>
        obtain ⟨c, cs, hcs, hc, -⟩ := exists_cons_of_isAttributeName (h a (by simp))
        rw [attributesText_cons, List.dropWhile_cons_of_pos (by decide), hcs, List.cons_append,
          List.dropWhile_cons_of_neg (by simp [hc.not_blank]),
          List.takeWhile_cons_of_neg (by simpa using hc.ne_equals)]
  rw [assigned?, hsigns]
  rfl

private theorem assigned?_quoted {value : List Char} (h : '\x22' ∉ value) (rest : List Char) :
    assigned? ('=' :: '\x22' :: (value ++ '\x22' :: rest)) = some (value, rest) := by
  have hbreak := breakAt?_append h rest
  generalize value ++ '\x22' :: rest = inner at hbreak
  have hfirst : ('=' :: '\x22' :: inner).dropWhile isBlank = '=' :: '\x22' :: inner :=
    List.dropWhile_cons_of_neg (by decide)
  have hsigns : ('=' :: '\x22' :: inner).takeWhile (· == '=') = ['='] := by
    rw [List.takeWhile_cons_of_pos (by decide), List.takeWhile_cons_of_neg (by decide)]
  have hafter : ('=' :: '\x22' :: inner).dropWhile (· == '=') = '\x22' :: inner := by
    rw [List.dropWhile_cons_of_pos (by decide), List.dropWhile_cons_of_neg (by decide)]
  have hvalue : ('\x22' :: inner).dropWhile isBlank = '\x22' :: inner :=
    List.dropWhile_cons_of_neg (by decide)
  have hquote : isQuote '\x22' = true := rfl
  unfold assigned?
  simp only [hfirst, hsigns, hafter, hvalue, hquote, if_true, hbreak, List.isEmpty_cons,
    Bool.false_eq_true, if_false]

/-- An attribute is found with its name and its value, and the gap behind it is skipped. -/
theorem attribute?_append {last : Char} {a : String × Option String} {attrs : Attributes}
    (hlast : allowsName last = true) (ha : isAttributeName a.1 = true)
    (hattrs : ∀ b ∈ attrs, isAttributeName b.1 = true) (rest : List Char) :
    attribute? last (a.1.toList ++ (assignment a.2 ++ (attributesText attrs ++ '>' :: rest))) =
      some ((writtenAttribute a).1, (writtenAttribute a).2,
        skipGap (attributesText attrs ++ '>' :: rest)) := by
  obtain ⟨name, value⟩ := a
  obtain ⟨c, cs, hname, hc, hcs⟩ := exists_cons_of_isAttributeName ha
  have hstart : isNameStart c = true := (Bool.and_eq_true_iff.1 hc.nameChar).1
  have hbehind : ∀ d ∈ (attributesText attrs ++ '>' :: rest).head?, isNameChar d = false := by
    intro d hd
    rcases head_attributesText hd with rfl | rfl <;> rfl
  have hchars : ∀ d ∈ cs, isNameChar d = true := fun d hd => (hcs d hd).nameChar
  rw [hname, List.cons_append]
  unfold attribute?
  simp only [hlast, hstart, Bool.and_self, if_true]
  cases value with
  | none =>
      have hspan := span_append hchars hbehind
      simp only [assignment, List.nil_append, hspan.1, hspan.2, assigned?_none hattrs,
        writtenAttribute, hname, Option.map_none]
  | some value =>
      have hassign : assignment (some value) ++ (attributesText attrs ++ '>' :: rest) =
          '=' :: '\x22' :: ((Node.escapeValue value).toList ++
            '\x22' :: (attributesText attrs ++ '>' :: rest)) := by
        simp [assignment]
      have hequals : ∀ tail, ∀ d ∈ ('=' :: tail).head?, isNameChar d = false := by
        intro tail d hd
        cases hd
        rfl
      have hspan := span_append hchars (hequals ('\x22' :: ((Node.escapeValue value).toList ++
        '\x22' :: (attributesText attrs ++ '>' :: rest))))
      simp only [hassign, hspan.1, hspan.2,
        assigned?_quoted (Reference.not_mem_escapeValue value), writtenAttribute, hname,
        Option.map_some]

private theorem attributes_attributesText {attrs : Attributes}
    (h : ∀ a ∈ attrs, isAttributeName a.1 = true) {last : Char}
    (hlast : attrs ≠ [] → allowsName last = true) (rest : List Char) :
    attributes last (skipGap (attributesText attrs ++ '>' :: rest)) =
      (attrs.map writtenAttribute, '>' :: rest) := by
  induction attrs generalizing last with
  | nil =>
      have hend : attribute? last ('>' :: rest) = none := by
        have hname : isNameStart '>' = false := rfl
        rw [attribute?, hname, Bool.and_false]
        rfl
      rw [attributesText, List.flatMap_nil, List.nil_append, skipGap_tagEnd, attributes, hend]
      rfl
  | cons a attrs ih =>
      have ha := h a (by simp)
      have hattrs : ∀ b ∈ attrs, isAttributeName b.1 = true := fun b hb => h b (by simp [hb])
      have hfound := attribute?_append (hlast (List.cons_ne_nil a attrs)) ha hattrs rest
      obtain ⟨gap, hgap, hblank⟩ := exists_gap hattrs rest
      obtain ⟨c, cs, hname, -, -⟩ := isNameOf_iff.1 ha
      have htail : cs ++ (assignment a.2 ++ (attributesText attrs ++ '>' :: rest)) =
          cs ++ assignment a.2 ++ gap ++ skipGap (attributesText attrs ++ '>' :: rest) := by
        rw [List.append_assoc, List.append_assoc, ← hgap]
      -- the character before the next attribute is the blank that was skipped
      have hnext : attrs ≠ [] →
          allowsName ((cs ++ assignment a.2 ++ gap).getLastD c) = true := by
        intro hne
        rw [hblank hne, List.getLastD_concat]
        rfl
      rw [skipGap_attributesText_cons ha, hname, List.cons_append]
      rw [hname, List.cons_append] at hfound
      rw [htail] at hfound ⊢
      rw [attributes, hfound]
      simp only [take_length_sub, drop_length_sub, ih hattrs hnext, List.map_cons]

private theorem decodeAttributes_writtenAttribute {attrs : Attributes}
    (h : ∀ a ∈ attrs, isAttributeName a.1 = true) :
    decodeAttributes (attrs.map writtenAttribute) = .ok attrs := by
  induction attrs with
  | nil => rfl
  | cons a attrs ih =>
      obtain ⟨name, value⟩ := a
      have hname : Text.lower name = name :=
        lower_eq_self (isPlain_of_isAttributeName (h (name, value) (by simp)))
      have hrest := ih fun b hb => h b (by simp [hb])
      unfold decodeAttributes
      cases value with
      | none =>
          simp only [List.map_cons, writtenAttribute, Option.map_none, String.ofList_toList, hname,
            hrest, pure_bind, ok_bind]
          rfl
      | some value =>
          simp only [List.map_cons, writtenAttribute, Option.map_some, String.ofList_toList, hname,
            hrest, Reference.decode_escapeValue, pure_bind, ok_bind]
          rfl

/-! ## Opening tags -/

/-- The element whose plain text follows an opening tag. -/
def rawOf (tag : String) : Option String :=
  if Node.isRaw tag then some tag else none

private theorem startTag?_append {tag : String} {attrs : Attributes} (htag : isTagName tag = true)
    (hattrs : ∀ a ∈ attrs, isAttributeName a.1 = true) (rest : List Char) :
    startTag? (tag.toList ++ (attributesText attrs ++ '>' :: rest)) =
      .ok (some ⟨[.start tag attrs], rawOf tag, rest⟩) := by
  have hbehind : ∀ d ∈ (attributesText attrs ++ '>' :: rest).head?, isTagChar d = false := by
    intro d hd
    rcases head_attributesText hd with rfl | rfl <;> rfl
  have hspan := span_append (fun d hd => (tagChars_spec (mem_of_isTagName htag d hd)).1) hbehind
  obtain ⟨gap, hgap, hblank⟩ := exists_gap hattrs rest
  have hlast : attrs ≠ [] → allowsName ((tag.toList ++ gap).getLastD '<') = true := by
    intro hne
    rw [hblank hne, List.getLastD_concat]
    rfl
  have hfound := attributes_attributesText hattrs hlast rest
  have hcs : tag.toList ++ (attributesText attrs ++ '>' :: rest) =
      tag.toList ++ gap ++ skipGap (attributesText attrs ++ '>' :: rest) := by
    rw [List.append_assoc, ← hgap]
  have hbefore : (tag.toList ++ (attributesText attrs ++ '>' :: rest)).take
      ((tag.toList ++ (attributesText attrs ++ '>' :: rest)).length -
        (skipGap (attributesText attrs ++ '>' :: rest)).length) = tag.toList ++ gap := by
    rw [hcs]
    exact take_length_sub _ _
  have hname : String.ofList tag.toList = tag := String.ofList_toList
  unfold startTag?
  simp only [hspan.1, hspan.2, hname, lower_of_isTagName htag]
  split
  · next after heq =>
    exact absurd heq (skipGap_attributesText_ne hattrs rest ('>' :: after))
  · simp only [hbefore, hfound, decodeAttributes_writtenAttribute hattrs, ok_bind]
    rfl

private theorem scanFrom_openTag {tag : String} {attrs : Attributes} (htag : isTagName tag = true)
    (hattrs : ∀ a ∈ attrs, isAttributeName a.1 = true) (rest : List Char) :
    scanFrom none ((Node.openTag tag attrs).toList ++ rest) =
      (.start tag attrs :: ·) <$> scanFrom (rawOf tag) rest := by
  obtain ⟨c, cs, hname, hc, -⟩ := isNameOf_iff.1 htag
  have hstart := startTag?_append htag hattrs rest
  have hpiece : piece (tag.toList ++ (attributesText attrs ++ ['>']) ++ rest) =
      .ok ⟨[.start tag attrs], rawOf tag, rest⟩ := by
    have hsplit : tag.toList ++ (attributesText attrs ++ ['>']) ++ rest =
        tag.toList ++ (attributesText attrs ++ '>' :: rest) := by simp
    rw [hsplit]
    unfold piece
    rw [hname, List.cons_append] at hstart ⊢
    split
    · next heq =>
      obtain ⟨rfl, -⟩ := List.cons.inj heq
      exact absurd hc (by decide)
    · next heq =>
      obtain ⟨rfl, -⟩ := List.cons.inj heq
      exact absurd hc (by decide)
    · next heq =>
      obtain ⟨rfl, -⟩ := List.cons.inj heq
      exact absurd hc (by decide)
    · next heq =>
      cases heq
      rw [if_pos (isLetter_of_mem hc), hstart]
      rfl
    · next heq => cases heq
  rw [toList_openTag]
  exact scanFrom_of_piece hpiece

theorem scans_openTag {tag : String} {attrs : Attributes} (htag : isTagName tag = true)
    (hattrs : ∀ a ∈ attrs, isAttributeName a.1 = true) (hraw : Node.isRaw tag = false) :
    Scans (Node.openTag tag attrs).toList [.start tag attrs] := by
  intro rest
  rw [scanFrom_openTag htag hattrs, rawOf, hraw]
  rfl

/-! ## Plain text -/

private theorem nameIn?_append {name : List Char} (h : ∀ c ∈ name, IsPlain c)
    (rest : List Char) : nameIn? name (name ++ rest) = some rest := by
  induction name with
  | nil =>
      unfold nameIn?
      rfl
  | cons c name ih =>
      have hspells : spells c c = true := by
        rw [spells, (h c (by simp)).lower, beq_self_eq_true]
        rfl
      rw [List.cons_append, nameIn?, if_pos hspells]
      exact ih fun d hd => h d (by simp [hd])

private theorem rawEnd?_closeTag {tag : String} (h : isTagName tag = true) (rest : List Char) :
    rawEnd? tag ('<' :: '/' :: (tag.toList ++ '>' :: rest)) = some ('/' :: tag.toList, rest) := by
  have hplain := isPlain_of_isTagName h
  have hfront : (tag.toList ++ '>' :: rest).dropWhile isBlank = tag.toList ++ '>' :: rest := by
    obtain ⟨c, cs, hname, -, -⟩ := isNameOf_iff.1 h
    have hc := hplain c (by simp [hname])
    rw [hname, List.cons_append, List.dropWhile_cons_of_neg (by simp [hc.not_blank])]
  have hback : ('>' :: rest).dropWhile isBlank = '>' :: rest :=
    List.dropWhile_cons_of_neg (by decide)
  have hbreak : breakAt? '>' ('/' :: (tag.toList ++ '>' :: rest)) =
      some ('/' :: tag.toList, rest) := by
    have hnot : '>' ∉ '/' :: tag.toList := by
      intro hin
      rcases List.mem_cons.1 hin with hslash | hin
      · exact absurd hslash (by decide)
      · exact (hplain '>' hin).ne_tagEnd rfl
    exact breakAt?_append hnot rest
  simp only [rawEnd?, hfront, nameIn?_append hplain, hback, hbreak]

/-- The text of a `script` or `style` element is kept as it is, and the element ends behind it. -/
theorem rawPiece?_closeTag {tag : String} {text : List Char} (htag : isTagName tag = true)
    (htext : '<' ∉ text) (rest : List Char) :
    rawPiece? tag (text ++ '<' :: '/' :: (tag.toList ++ '>' :: rest)) =
      some ⟨(if text.isEmpty then [] else [verbatim text]) ++ [.close tag], none, rest⟩ := by
  have hsearch : search? (rawEnd? tag) (text ++ '<' :: '/' :: (tag.toList ++ '>' :: rest)) =
      some (text, '/' :: tag.toList, rest) := by
    apply search?_append _ (rawEnd?_closeTag htag rest)
    intro front back hback hne
    cases back with
    | nil => exact absurd rfl hne
    | cons c back =>
        have hc : c ≠ '<' := by
          rintro rfl
          exact htext (by simp [hback])
        rw [List.cons_append]
        unfold rawEnd?
        split
        · next heq => exact absurd (List.cons.inj heq).1 hc
        · rfl
  have hclose := plainCloseTag?_append htag []
  rw [rawPiece?, hsearch, Option.map_some]
  simp only [List.tail_cons, hclose, String.ofList_toList, lower_of_isTagName htag]

theorem scans_rawElement {tag : String} {attrs : Attributes} {text : List Char}
    (htag : isTagName tag = true) (hattrs : ∀ a ∈ attrs, isAttributeName a.1 = true)
    (hraw : Node.isRaw tag = true) (htext : '<' ∉ text) :
    Scans ((Node.openTag tag attrs).toList ++ text ++ (Node.closeTag tag).toList)
      (.start tag attrs :: ((if text.isEmpty then [] else [verbatim text]) ++ [.close tag])) := by
  intro rest
  have hpiece := rawPiece?_closeTag htag htext rest
  have hsplit : text ++ '<' :: '/' :: (tag.toList ++ '>' :: rest) =
      text ++ (Node.closeTag tag).toList ++ rest := by
    simp [toList_closeTag]
  have hne : text ++ (Node.closeTag tag).toList ≠ [] := by
    simp [toList_closeTag]
  rw [hsplit] at hpiece
  rw [List.append_assoc, List.append_assoc, ← List.append_assoc text,
    scanFrom_openTag htag hattrs, rawOf, if_pos hraw, scanFrom_of_rawPiece hne hpiece]
  cases scanFrom none rest <;> rfl

end PageForms.Scanner
