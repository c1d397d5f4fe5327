import PageForms.Page.Source
import PageForms.Proofs.Markup.Document
import PageForms.Proofs.Page.PageTags

/-!
# The module of a markup page

Tags and attribute names become symbols and keywords of the module. Markup has names that no symbol
or keyword is read from, so the module of a page is read back as its forms exactly if the names in
the body can be read.
-/

namespace PageForms

open Datum

namespace Node

mutual

/-- The names of the node's elements and attributes can be read as symbols and keywords. Scripts
that hold forms leave no names of their own. -/
def namesReadable : Node → Bool
  | .text _ | .comment _ | .bare => true
  | .element tag attrs content =>
    isFormScript tag attrs ||
      (Reader.isSymbolName (Tag.symbolName tag) && attrs.all (fun a => Reader.isKeywordName a.1) &&
        allNamesReadable content)

def allNamesReadable : List Node → Bool
  | [] => true
  | n :: ns => namesReadable n && allNamesReadable ns

end

private theorem allNamesReadable_eq_all (ns : List Node) :
    allNamesReadable ns = ns.all namesReadable := by
  induction ns with
  | nil => rfl
  | cons n ns ih => rw [allNamesReadable, ih, List.all_cons]

private theorem all_namesReadable_of_element {tag : String} {attrs : Attributes}
    {content : List Node} (h : (Node.element tag attrs content).namesReadable = true)
    (hscript : isFormScript tag attrs = false) : content.all namesReadable = true := by
  rw [namesReadable, hscript, Bool.false_or, Bool.and_eq_true, allNamesReadable_eq_all] at h
  exact h.2

/-! ## Forms of nodes -/

private theorem listToForms_cons {n : Node} {ns : List Node} {forms : List Datum}
    (h : listToForms (n :: ns) = .ok forms) :
    ∃ front rest, n.toForms = .ok front ∧ listToForms ns = .ok rest ∧ forms = front ++ rest := by
  rw [listToForms] at h
  obtain ⟨front, hfront, h⟩ := bind_eq_ok h
  obtain ⟨rest, hrest, h⟩ := bind_eq_ok h
  cases h
  exact ⟨front, rest, hfront, hrest, rfl⟩

private theorem listToForms_append {ms ns : List Node} {forms : List Datum}
    (h : listToForms (ms ++ ns) = .ok forms) :
    ∃ front rest, listToForms ms = .ok front ∧ listToForms ns = .ok rest ∧
      forms = front ++ rest := by
  induction ms generalizing forms with
  | nil => exact ⟨[], forms, rfl, h, rfl⟩
  | cons m ms ih =>
      obtain ⟨first, more, hfirst, hmore, rfl⟩ := listToForms_cons h
      obtain ⟨front, rest, hfront, hrest, rfl⟩ := ih hmore
      refine ⟨first ++ front, rest, ?_, hrest, by rw [List.append_assoc]⟩
      rw [listToForms, hfirst, ok_bind, hfront]
      rfl

private theorem exists_of_mem_listToForms {ns : List Node} {forms : List Datum}
    (h : listToForms ns = .ok forms) :
    ∀ v ∈ forms, ∃ n ∈ ns, ∃ vs, n.toForms = .ok vs ∧ v ∈ vs := by
  induction ns generalizing forms with
  | nil =>
      cases h
      simp
  | cons n ns ih =>
      obtain ⟨front, rest, hfront, hrest, rfl⟩ := listToForms_cons h
      intro v hv
      rcases List.mem_append.1 hv with hv | hv
      · exact ⟨n, by simp, front, hfront, hv⟩
      · obtain ⟨m, hm, vs, hvs, hv⟩ := ih hrest v hv
        exact ⟨m, by simp [hm], vs, hvs, hv⟩

/-- An element stands either for the forms it holds or for one form of its own. -/
theorem toForms_element {tag : String} {attrs : Attributes} {content : List Node}
    {forms : List Datum} (h : (Node.element tag attrs content).toForms = .ok forms) :
    (isFormScript tag attrs = true ∧ Reader.read (rawTexts content) = .ok forms) ∨
    (isFormScript tag attrs = false ∧ ∃ kids, listToForms content = .ok kids ∧
      forms = [.call (Tag.symbolName tag) (.map (attrs.map attributeEntry) :: kids)]) := by
  rw [toForms] at h
  split at h
  · next hscript => exact .inl ⟨hscript, h⟩
  · next hscript =>
    obtain ⟨kids, hkids, h⟩ := bind_eq_ok h
    cases h
    exact .inr ⟨by simpa using hscript, kids, hkids, rfl⟩

/-! ## Which forms can be read -/

private theorem distinct_attributes {attrs : Attributes} (h : (attrs.map Prod.fst).Nodup) :
    Entries.Distinct (attrs.map attributeEntry) := by
  constructor
  · intro e he
    obtain ⟨⟨name, value⟩, -, rfl⟩ := List.mem_map.1 he
    cases value <;> rfl
  · rw [List.pairwise_map]
    rw [List.nodup_iff_pairwise_ne, List.pairwise_map] at h
    apply h.imp
    rintro ⟨a, x⟩ ⟨b, y⟩ hne
    have hkeys : (Datum.keyword b).equal (.keyword a) = false := by
      rw [Datum.equal]
      exact beq_eq_false_iff_ne.2 (Ne.symm hne)
    cases x <;> cases y <;> exact hkeys

private theorem wellFormed_attributes_iff {attrs : Attributes}
    (hnodup : (attrs.map Prod.fst).Nodup) :
    (Datum.map (attrs.map attributeEntry)).WellFormed FromLexeme ↔
      attrs.all (fun a => Reader.isKeywordName a.1) = true := by
  have hkey : ∀ a : String × Option String, (attributeEntry a).1 = .keyword a.1 := by
    rintro ⟨name, _ | value⟩ <;> rfl
  have hvalue : ∀ a : String × Option String, (attributeEntry a).2.WellFormed FromLexeme := by
    rintro ⟨name, _ | value⟩
    · exact (restorable_of_isAtomOf (by decide +kernel : isAtomOf (.bool true) "true" = true)
        rfl).wellFormed
    · exact (restorable_str value).wellFormed
  rw [List.all_eq_true]
  constructor
  · intro h a ha
    cases h with
    | atom hv _ => cases hv
    | map hkeys _ _ =>
        have hwf := hkeys (attributeEntry a) (List.mem_map_of_mem ha)
        rw [hkey, wellFormed_atom_iff rfl] at hwf
        exact Reader.fromLexeme_keyword_iff.1 hwf
  · intro h
    refine .map ?_ ?_ (distinct_attributes hnodup)
    · intro e he
      obtain ⟨a, ha, rfl⟩ := List.mem_map.1 he
      rw [hkey, wellFormed_atom_iff rfl]
      exact Reader.fromLexeme_keyword_iff.2 (h a ha)
    · intro e he
      obtain ⟨a, -, rfl⟩ := List.mem_map.1 he
      exact hvalue a

/-- If the forms of each node can be read exactly when its names can, so it is for nodes in a
row. -/
theorem wellFormed_listToForms_iff_of_forall {ns : List Node} {forms : List Datum}
    (hns : ∀ n ∈ ns, ∀ vs, n.toForms = .ok vs →
      ((∀ v ∈ vs, v.WellFormed FromLexeme) ↔ n.namesReadable = true))
    (h : listToForms ns = .ok forms) :
    (∀ v ∈ forms, v.WellFormed FromLexeme) ↔ ns.all namesReadable = true := by
  induction ns generalizing forms with
  | nil =>
      cases h
      simp
  | cons n ns ih =>
      obtain ⟨front, rest, hfront, hrest, rfl⟩ := listToForms_cons h
      have hfirst := hns n (by simp) front hfront
      have hmore := ih (fun m hm => hns m (by simp [hm])) hrest
      rw [List.all_cons, Bool.and_eq_true, ← hfirst, ← hmore, List.forall_mem_append]

private theorem wellFormed_toForms_iff {n : Node}
    (hn : n.Each fun _ attrs => (attrs.map Prod.fst).Nodup) {forms : List Datum}
    (h : n.toForms = .ok forms) :
    (∀ v ∈ forms, v.WellFormed FromLexeme) ↔ n.namesReadable = true := by
  induction n using induction_content generalizing forms with
  | text s =>
      cases h
      simpa [namesReadable] using (restorable_str s).wellFormed
  | comment s =>
      cases h
      have hcomment : (Datum.call Tag.comment [.str s]).Restorable := by
        apply restorable_call (by decide +kernel)
        intro x hx
        rw [List.mem_singleton.1 hx]
        exact restorable_str s
      simpa [namesReadable] using hcomment.wellFormed
  | bare => cases h
  | element tag attrs content ih =>
      obtain ⟨hattrs, hcontent⟩ := hn.of_element
      rw [namesReadable, allNamesReadable_eq_all]
      rcases toForms_element h with ⟨hscript, hread⟩ | ⟨hscript, kids, hkids, rfl⟩
      · rw [hscript, Bool.true_or]
        exact iff_of_true (Reader.wellFormed_of_read hread) rfl
      · have hinner := wellFormed_listToForms_iff_of_forall
          (fun m hm vs hvs => ih m hm (hcontent m hm) hvs) hkids
        rw [hscript, Bool.false_or, Bool.and_eq_true, Bool.and_eq_true, ← hinner,
          ← wellFormed_attributes_iff hattrs, ← Reader.fromLexeme_symbol_iff,
          List.forall_mem_singleton, Datum.call, wellFormed_seq_iff, List.forall_mem_cons,
          List.forall_mem_cons, wellFormed_atom_iff rfl, and_assoc]
        exact and_iff_right rfl

private theorem wellFormed_listToForms_iff {ns : List Node}
    (hns : ∀ n ∈ ns, n.Each fun _ attrs => (attrs.map Prod.fst).Nodup) {forms : List Datum}
    (h : listToForms ns = .ok forms) :
    (∀ v ∈ forms, v.WellFormed FromLexeme) ↔ ns.all namesReadable = true :=
  wellFormed_listToForms_iff_of_forall (fun n hn _ hvs => wellFormed_toForms_iff (hns n hn) hvs) h

/-- A namespace declaration can be read in any case: it comes from a script that holds forms, since
the form of an element has its attributes where a declaration has its name. -/
theorem wellFormed_of_split? {n : Node} {vs : List Datum} {v : Datum}
    {parts : List Datum × String × List Datum} (h : n.toForms = .ok vs) (hv : v ∈ vs)
    (hsplit : Namespace.split? v = some parts) : v.WellFormed FromLexeme := by
  cases n with
  | text s =>
      cases h
      rw [List.mem_singleton.1 hv] at hsplit
      cases hsplit
  | comment s =>
      cases h
      rw [List.mem_singleton.1 hv] at hsplit
      cases hsplit
  | bare => cases h
  | element tag attrs content =>
      rcases toForms_element h with ⟨-, hread⟩ | ⟨-, kids, -, rfl⟩
      · exact Reader.wellFormed_of_read hread v hv
      · rw [List.mem_singleton.1 hv] at hsplit
        obtain ⟨front, name, clauses⟩ := parts
        obtain ⟨shape, literals, hform, -, rfl, hliterals⟩ := Namespace.split?_eq_some hsplit
        have hitems := (List.cons.inj (Datum.seq.inj hform).2).2
        cases literals with
        | nil => cases hitems
        | cons first literals =>
            rw [← (List.cons.inj hitems).1] at hliterals
            exact absurd (hliterals _ (List.mem_cons_self ..)) Bool.false_ne_true

/-! ## The page and its body -/

private theorem toForms_of_mem {ns : List Node} {forms : List Datum}
    (h : listToForms ns = .ok forms)
    {n : Node} (hn : n ∈ ns) : ∃ vs, n.toForms = .ok vs ∧ ∀ v ∈ vs, v ∈ forms := by
  induction ns generalizing forms with
  | nil => cases hn
  | cons m ns ih =>
      obtain ⟨front, rest, hfront, hrest, rfl⟩ := listToForms_cons h
      rcases List.mem_cons.1 hn with rfl | hn
      · exact ⟨front, hfront, fun v hv => by simp [hv]⟩
      · obtain ⟨vs, hvs, hmem⟩ := ih hrest hn
        exact ⟨vs, hvs, fun v hv => by simp [hmem v hv]⟩

/-- An `html` or `body` element stands for a form with that role. -/
theorem toForms_of_isElement {r : Role} (hr : r = .html ∨ r = .body) {n : Node}
    (hn : n.isElement r.name = true) {vs : List Datum} (h : n.toForms = .ok vs) :
    ∃ attrs content kids, n = .element r.name attrs content ∧ listToForms content = .ok kids ∧
      vs = [.call r.name (.map (attrs.map attributeEntry) :: kids)] := by
  obtain ⟨attrs, content, rfl⟩ := Document.eq_of_isElement hn
  refine ⟨attrs, content, ?_⟩
  rcases toForms_element h with ⟨hscript, -⟩ | ⟨-, kids, hkids, rfl⟩
  · rw [isFormScript, Bool.and_eq_true, beq_iff_eq] at hscript
    rcases hr with rfl | rfl <;> exact absurd hscript.1 (by decide)
  · have hname : Tag.symbolName r.name = r.name := by
      rcases hr with rfl | rfl <;> decide +kernel
    rw [hname]
    exact ⟨kids, rfl, hkids, rfl⟩

private theorem role_call {r : Role} (hr : r = .html ∨ r = .body) (xs : List Datum) :
    (Datum.call r.name xs).role = r := by
  rcases hr with rfl | rfl <;> rfl

/-- If only one of the forms of some nodes is a page, or a body, and one of the nodes is such an
element, then the form is that element's and no other node is such an element. -/
theorem unique_of_filter {r : Role} (hr : r = .html ∨ r = .body) {before after : List Node}
    {attrs : Attributes} {content : List Node} {forms : List Datum} {v : Datum}
    (h : listToForms (before ++ .element r.name attrs content :: after) = .ok forms)
    (hfilter : forms.filter (fun w => w.role == r) = [v]) :
    (∃ kids, listToForms content = .ok kids ∧
      v = .call r.name (.map (attrs.map attributeEntry) :: kids)) ∧
    ∀ n ∈ before ++ after, n.isElement r.name = false := by
  obtain ⟨front, more, hfront, hmore, rfl⟩ := listToForms_append h
  obtain ⟨middle, back, hmiddle, hback, rfl⟩ := listToForms_cons hmore
  have hself : (Node.element r.name attrs content).isElement r.name = true :=
    beq_self_eq_true r.name
  obtain ⟨attrs', content', kids, heq, hkids, rfl⟩ := toForms_of_isElement hr hself hmiddle
  cases heq
  have hrole : (Datum.call r.name (.map (attrs.map attributeEntry) :: kids)).role = r :=
    role_call hr _
  rw [List.filter_append, List.filter_append, List.filter_cons_of_pos (by simp [hrole])] at hfilter
  -- the filtered list has one member, so nothing is left before and behind the element's form
  have hlength := congrArg List.length hfilter
  simp only [List.length_append, List.length_cons, List.length_nil] at hlength
  have hfrontNil : front.filter (fun w => w.role == r) = [] := by
    apply List.length_eq_zero_iff.1
    omega
  have hbackNil : back.filter (fun w => w.role == r) = [] := by
    apply List.length_eq_zero_iff.1
    omega
  rw [hfrontNil, hbackNil] at hfilter
  cases hfilter
  refine ⟨⟨kids, hkids, rfl⟩, ?_⟩
  have hother : ∀ {ns : List Node} {vs : List Datum}, listToForms ns = .ok vs →
      vs.filter (fun w => w.role == r) = [] → ∀ n ∈ ns, n.isElement r.name = false := by
    intro ns vs hvs hnil n hn
    cases helement : n.isElement r.name with
    | false => rfl
    | true =>
        obtain ⟨ws, hws, hmem⟩ := toForms_of_mem hvs hn
        obtain ⟨_, _, _, -, -, rfl⟩ := toForms_of_isElement hr helement hws
        have hnot := List.filter_eq_nil_iff.1 hnil _ (hmem _ (List.mem_singleton_self _))
        rw [role_call hr] at hnot
        exact absurd (beq_self_eq_true r) hnot
  intro n hn
  rcases List.mem_append.1 hn with hn | hn
  · exact hother hfront hfrontNil n hn
  · exact hother hback hbackNil n hn

end Node

/-! ## The module -/

namespace Page

/-- The module of a markup page is made of the content of the page's body: the first form of the
body and the forms behind it. -/
theorem code_of_markup {nodes : List Node} {forms : List Datum} {p : Plan}
    (hforms : Node.listToForms (Document.ensure nodes) = .ok forms)
    (hplan : plan (.list forms) = .ok p) :
    ∃ before attrs front bodyAttrs inner back after declaration,
      Document.ensure nodes = before ++ .element "html" attrs
        (front ++ .element "body" bodyAttrs inner :: back) :: after ∧
      (∀ n ∈ before ++ after, n.isElement "html" = false) ∧
      (∀ n ∈ front ++ back, n.isElement "body" = false) ∧
      Node.listToForms inner = .ok (declaration :: p.content) ∧
      Module.assemble declaration p.content = .ok p.code ∧
      ((∀ v ∈ forms, v.isPrintable = true) → ∀ v ∈ declaration :: p.content, v.isPrintable = true)
    := by
  obtain ⟨before, attrs, front, bodyAttrs, inner, back, after, hnodes⟩ :=
    Document.exists_body_ensure nodes
  obtain ⟨-, hhtml, body, items, declaration, hbody, hitems, hchildren, hcode, -⟩ :=
    plan_eq_ok hplan
  have hhtmlFilter : forms.filter (fun v => v.role == .html) = [p.html] := by
    rcases findHtml_eq_ok hhtml with ⟨hrole, -⟩ | ⟨-, _, hlist, hfilter⟩
    · cases hrole
    · cases hlist
      exact hfilter
  rw [hnodes] at hforms
  obtain ⟨⟨kids, hkids, hhtmlForm⟩, houtside⟩ :=
    Node.unique_of_filter (.inl rfl) hforms hhtmlFilter
  obtain ⟨htmlItems, hhtmlItems, hbodyFilter⟩ := bodyOf_eq_ok hbody
  rw [hhtmlForm] at hhtmlItems
  cases hhtmlItems
  obtain ⟨⟨bodyKids, hbodyKids, rfl⟩, hbeside⟩ :=
    Node.unique_of_filter (.inr rfl) hkids hbodyFilter
  cases hitems
  cases hchildren
  refine ⟨before, attrs, front, bodyAttrs, inner, back, after, declaration, hnodes, houtside,
    hbeside, hbodyKids, hcode, ?_⟩
  intro hprintable v hv
  have hpage := hprintable p.html (role_of_filter hhtmlFilter).1
  rw [hhtmlForm, Datum.call, isPrintable_seq, List.all_eq_true] at hpage
  have hbodyPrintable := hpage _ (List.mem_cons_of_mem _ (role_of_filter hbodyFilter).1)
  rw [Datum.call, isPrintable_seq, List.all_eq_true] at hbodyPrintable
  exact hbodyPrintable v (List.mem_cons_of_mem _ (List.mem_cons_of_mem _ hv))

/-- The module of a markup page is read back as its forms, the declaration with the runtime
environment imported and the entry point with the rest of the body, exactly if every name in the
body can be read. -/
theorem read_code_iff_namesReadable {text : String} {forms : List Datum} {options : CompileOptions}
    {bundle : Bundle} (hforms : formsOfMarkup text = .ok forms)
    (hfinite : ∀ v ∈ forms, v.isFinite = true) (hwritable : ∀ v ∈ forms, v.writable = true)
    (hcompile : compileSource .markup text options = .ok bundle) :
    ∃ before attrs front bodyAttrs inner back after declaration content code,
      Document.parse text = .ok (before ++ .element "html" attrs
        (front ++ .element "body" bodyAttrs inner :: back) :: after) ∧
      (∀ n ∈ before ++ after, n.isElement "html" = false) ∧
      (∀ n ∈ front ++ back, n.isElement "body" = false) ∧
      Node.listToForms inner = .ok (declaration :: content) ∧
      Module.assemble declaration content = .ok code ∧
      (Reader.read bundle.code = .ok code ↔ inner.all Node.namesReadable = true) := by
  unfold compileSource planSource documentOf at hcompile
  obtain ⟨p, hplan, hrender⟩ := bind_eq_ok hcompile
  rw [hforms] at hplan
  obtain ⟨nodes, hparse, hlist⟩ := bind_eq_ok hforms
  have hnodup := Document.nodup_of_parse hparse
  obtain ⟨events, hscan, hensure⟩ := bind_eq_ok hparse
  cases hensure
  obtain ⟨before, attrs, front, bodyAttrs, inner, back, after, declaration, hnodes, houtside,
    hbeside, hinner, hcode, hprintable⟩ := code_of_markup hlist hplan
  rw [hnodes] at hparse hnodup
  obtain ⟨-, -, -, -, -, htext⟩ := render_eq_ok hrender
  refine ⟨before, attrs, front, bodyAttrs, inner, back, after, declaration, p.content, p.code,
    hparse, houtside, hbeside, hinner, hcode, ?_⟩
  have hbodyPrintable := hprintable fun v hv => by
    rw [isPrintable, hwritable v hv, hfinite v hv]
    rfl
  have hinnerNodup : ∀ n ∈ inner, n.Each fun _ attrs => (attrs.map Prod.fst).Nodup := by
    have hhtml := (hnodup _ (List.mem_append_right _ (List.mem_cons_self ..))).of_element
    exact (hhtml.2 _ (List.mem_append_right _ (List.mem_cons_self ..))).of_element.2
  have hdeclaration : declaration.WellFormed FromLexeme := by
    obtain ⟨imported, himported, -⟩ := Module.assemble_eq_ok hcode
    obtain ⟨_, _, _, hsplit, -⟩ := Namespace.importRuntime_eq_ok himported
    obtain ⟨n, -, vs, hvs, hmem⟩ := Node.exists_of_mem_listToForms hinner declaration (by simp)
    exact Node.wellFormed_of_split? hvs hmem hsplit
  rw [← Node.wellFormed_listToForms_iff hinnerNodup hinner, List.forall_mem_cons,
    Module.read_text_iff (hdeclaration.and_isPrintable (hbodyPrintable declaration (by simp)))
      (fun v hv => hbodyPrintable v (by simp [hv])) hcode htext]
  exact (and_iff_right hdeclaration).symm

theorem read_code_iff_namesReadable_nested :
    ∃ text bundle inner declaration content code,
      text = "<script type=text/hlisp>(ns m-a) -2.5</script><P data-x=1 hidden>&lt;<br><map>" ∧
      compileSource .markup text ⟨"main.js", none, 20, some "html"⟩ = .ok bundle ∧
      Node.listToForms inner = .ok (declaration :: content) ∧
      Module.assemble declaration content = .ok code ∧ Reader.read bundle.code = .ok code := by
  obtain ⟨text, htext⟩ : ∃ s, s =
    "<script type=text/hlisp>(ns m-a) -2.5</script><P data-x=1 hidden>&lt;<br><map>" :=
      ⟨_, rfl⟩
  have hcompiles :
      (compileSource .markup text ⟨"main.js", none, 20, some "html"⟩).isOk = true := by
    rw [htext]
    decide +kernel
  have hprintable : (fun forms => forms.all isFinite && forms.all writable) <$>
      formsOfMarkup text = .ok true := by
    rw [htext]
    decide +kernel
  have hreadable : (·.all Node.namesReadable) <$> Document.parse text = .ok true := by
    rw [htext]
    decide +kernel
  obtain ⟨bundle, hcompile⟩ := exists_of_isOk hcompiles
  obtain ⟨forms, hforms, hnumbers⟩ := map_eq_ok hprintable
  obtain ⟨nodes, hnodes, hnames⟩ := map_eq_ok hreadable
  rw [Bool.and_eq_true, List.all_eq_true, List.all_eq_true] at hnumbers
  obtain ⟨before, attrs, front, bodyAttrs, inner, back, after, declaration, content, code, hparse,
    -, -, hinner, hcode, hread⟩ :=
    read_code_iff_namesReadable hforms hnumbers.1 hnumbers.2 hcompile
  rw [hnodes] at hparse
  cases hparse
  have hinnerNames : inner.all Node.namesReadable = true := by
    have hhtml := List.all_eq_true.1 hnames _ (List.mem_append_right _ (List.mem_cons_self ..))
    have hbody := List.all_eq_true.1 (Node.all_namesReadable_of_element hhtml rfl) _
      (List.mem_append_right _ (List.mem_cons_self ..))
    exact Node.all_namesReadable_of_element hbody rfl
  exact ⟨text, bundle, inner, declaration, content, code, htext, hcompile, hinner, hcode,
    hread.2 hinnerNames⟩

/-- An attribute name that no keyword is read from spoils the module. -/
theorem read_code_ne_of_sign_in_name :
    ∃ text bundle declaration content code,
      text = "<html><body><script type=\"text/hlisp\">(ns a)</script>" ++
        "<button @click=\"go\">x</button></body></html>" ∧
      formsOfMarkup text = .ok [.call "html" [.map [], .call "body"
        (.map [] :: declaration :: content)]] ∧
      Module.assemble declaration content = .ok code ∧
      compileSource .markup text ⟨"main.js", none, 20, some "html"⟩ = .ok bundle ∧
      Reader.read bundle.code ≠ .ok code := by
  obtain ⟨text, htext⟩ : ∃ s, s = "<html><body><script type=\"text/hlisp\">(ns a)</script>" ++
    "<button @click=\"go\">x</button></body></html>" := ⟨_, rfl⟩
  have hforms : formsOfMarkup text = .ok [.call "html" [.map [], .call "body" [.map [],
      .call "ns" [.symbol "a"],
      .call "button" [.map [(.keyword "@click", .str "go")], .str "x"]]]] := by
    rw [htext]
    decide +kernel
  have hcompiles :
      (compileSource .markup text ⟨"main.js", none, 20, some "html"⟩).isOk = true := by
    rw [htext]
    decide +kernel
  obtain ⟨bundle, hcompile⟩ := exists_of_isOk hcompiles
  refine ⟨text, bundle, _, _, _, htext, hforms, rfl, hcompile, ?_⟩
  intro hread
  have hentry : (Module.entryPoint [.call "button" [.map [(.keyword "@click", .str "go")],
      .str "x"]]).WellFormed FromLexeme :=
    Reader.wellFormed_of_read hread _ (List.mem_cons_of_mem _ (List.mem_singleton_self _))
  have hbutton := Module.wellFormed_of_entryPoint hentry _ (List.mem_singleton_self _)
  have hmap : (Datum.map (List.map attributeEntry [("@click", some "go")])).WellFormed FromLexeme :=
    (wellFormed_seq_iff.1 hbutton).2 _ (List.mem_cons_of_mem _ (List.mem_cons_self ..))
  have hname := (Node.wellFormed_attributes_iff (by simp)).1 hmap
  exact absurd hname (by decide +kernel)

end Page

end PageForms
