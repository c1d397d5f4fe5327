import PageForms.Proofs.Page.PageTags

/-!
# Compiling replaces one form

The nodes of a compiled document are those of its items in order. Only in the place of the `html`
form there is the element of another one. It has as many items: every item is made ready for the
page, and the body goes on after its content with the scripts of the page.
-/

namespace PageForms

namespace Page

open Datum

/-! ## The compiled form -/

/-- The second form is the first one made ready for the page: its styles are compiled, then elements
get attribute maps, then tags become known ones. -/
def IsNormalized (v w : Datum) : Prop :=
  ∃ styled, Stylesheet.compileAll v = .ok styled ∧ w = styled.withAttributes.withKnownTags

/-- A body in the page: its attributes, or an empty map, then its children behind the declaration,
then the scripts for the namespace that the declaration names. -/
inductive IsCompiledBody (options : CompileOptions) : Datum → Datum → Prop
  | intro {shape : Shape} {items content content' : List Datum} {declaration : Datum}
      {name : String} (hchildren : childrenIn items = declaration :: content)
      (hdeclaration : declaration.role = .namespace)
      (hname : Namespace.name declaration = .ok name)
      (hcontent : List.Forall₂ IsNormalized content content') :
      IsCompiledBody options (.seq shape items)
        (.call "body" (.map ((attributesIn items).getD []) :: content' ++
          bootScripts (objectPath name) options.jsUri options.baseUri))

/-- An `html` form in the page: its only body is compiled, and what stands around it is made ready
for the page. -/
inductive IsCompiledHtml (options : CompileOptions) : Datum → Datum → Prop
  | intro {shape : Shape} {before before' after after' : List Datum} {body body' : Datum}
      (hrole : body.role = .body) (hother : ∀ v ∈ before ++ after, v.role ≠ .body)
      (hbefore : List.Forall₂ IsNormalized before before')
      (hbody : IsCompiledBody options body body')
      (hafter : List.Forall₂ IsNormalized after after') :
      IsCompiledHtml options (.seq shape (.symbol "html" :: (before ++ body :: after)))
        (.form (.symbol "html" :: (before' ++ body' :: after')))

private theorem forall₂_isNormalized {vs ws : List Datum} (h : vs.mapM toPageForm = .ok ws) :
    List.Forall₂ IsNormalized vs ws := by
  apply (forall₂_of_mapM h).imp
  intro v w hw
  obtain ⟨styled, hstyled, hw⟩ := bind_eq_ok hw
  cases hw
  exact ⟨styled, hstyled, rfl⟩

private theorem isCompiledHtml_of_plan {document html : Datum} {p : Plan} {options : CompileOptions}
    (hplan : plan document = .ok p) (h : p.compiledHtml options = .ok html) :
    IsCompiledHtml options p.html html := by
  obtain ⟨-, -, body, items, declaration, hbody, hitems, hchildren, -, hdeclaration, hname,
    hattributes⟩ := plan_eq_ok hplan
  obtain ⟨shape, kids, -, hkids, -⟩ := html_of_plan hplan
  -- the plan knows its body only as what was found, so it is tied to its place here
  obtain ⟨htmlItems, hhtmlItems, hfilter⟩ := bodyOf_eq_ok hbody
  rw [hkids] at hhtmlItems
  cases hhtmlItems
  obtain ⟨before, after, before', after', content, rfl, hother, hcontent, hbefore, hafter, rfl⟩ :=
    compiledHtml_eq_ok hkids hfilter h
  have hrole := role_of_bodyOf hbody
  have hcompiled : IsCompiledBody options body (compiledBody p options content) := by
    obtain ⟨bodyShape, xs, rfl, -⟩ := eq_seq_of_role hrole (by decide)
    cases hitems
    rw [compiledBody, hattributes]
    exact .intro hchildren hdeclaration hname (forall₂_isNormalized hcontent)
  rw [hkids]
  exact .intro hrole hother (forall₂_isNormalized hbefore) hcompiled (forall₂_isNormalized hafter)

private theorem IsCompiledHtml.toMarkup_eq_ok {options : CompileOptions} {html compiled : Datum}
    {nodes : List Node} (hcompiled : IsCompiledHtml options html compiled)
    (h : toMarkup compiled = .ok nodes) : ∃ attrs inner, nodes = [.element "html" attrs inner] := by
  cases hcompiled
  rw [toMarkup_call rfl] at h
  obtain ⟨attrs, inner, -, rfl⟩ := elementMarkup_eq_ok rfl h
  exact ⟨attrs, inner, rfl⟩

/-! ## Its place in the document -/

/-- Only the page among the items of a document is replaced, whatever stands inside the other
items. -/
theorem compiledForms_seq {shape : Shape} {items forms : List Datum} {p : Plan}
    {options : CompileOptions} (hdocument : (Datum.seq shape items).role ≠ .html)
    (hplan : plan (.seq shape items) = .ok p) (h : p.compiledForms options = .ok forms) :
    ∃ front back html, items = front ++ p.html :: back ∧ p.html.role = .html ∧
      (∀ v ∈ front ++ back, v.role ≠ .html) ∧ p.compiledHtml options = .ok html ∧
      forms = front ++ html :: back := by
  obtain ⟨hsame, hhtml, -⟩ := plan_eq_ok hplan
  unfold Plan.compiledForms at h
  obtain ⟨html, hcompiled, h⟩ := bind_eq_ok h
  rw [hsame, if_neg (by simpa using hdocument)] at h
  rcases findHtml_eq_ok hhtml with ⟨hrole, -⟩ | ⟨-, _, hitems, hunique⟩
  · exact absurd hrole hdocument
  · cases hitems
    obtain ⟨front, back, rfl, hrole, hkept⟩ := exists_split_of_filter hunique
    rw [beq_iff_eq] at hrole
    have hother : ∀ v ∈ front ++ back, v.role ≠ .html := fun v hv => by simpa using hkept v hv
    rw [replaceRole_of_unique hrole hother] at h
    cases h
    exact ⟨front, back, html, rfl, hrole, hother, hcompiled, rfl⟩

/-- So compiling replaces the node of the page in its document and changes nothing else there. -/
theorem compiledForms_replaces_html {shape : Shape} {items forms : List Datum} {p : Plan}
    {options : CompileOptions} (hdocument : (Datum.seq shape items).role ≠ .html)
    (hplan : plan (.seq shape items) = .ok p) (h : p.compiledForms options = .ok forms) :
    ∃ html i, p.compiledHtml options = .ok html ∧
      (Datum.seq shape items).part? [i] = some p.html ∧
      (Datum.seq shape items).replaceNode [(i : Int)] html = .ok (.seq shape forms) ∧
      Datum.ReplacedAt (.seq shape items) (· = [i]) html (.seq shape forms) := by
  obtain ⟨front, back, html, rfl, hrole, -, hcompiled, rfl⟩ :=
    compiledForms_seq hdocument hplan h
  exact ⟨html, front.length, hcompiled, part?_item .., replaceNode_item (by decide) hrole html⟩

private theorem listMarkup_groups {vs : List Datum} {nodes : List Node}
    (h : listMarkup vs = .ok nodes) :
    ∃ groups, List.Forall₂ (fun v group => toMarkup v = .ok group) vs groups ∧
      nodes = groups.flatten := by
  induction vs generalizing nodes with
  | nil =>
      cases h
      exact ⟨[], .nil, rfl⟩
  | cons v vs ih =>
      obtain ⟨group, rest, hgroup, hrest, rfl⟩ := listMarkup_cons h
      obtain ⟨groups, hgroups, rfl⟩ := ih hrest
      exact ⟨group :: groups, .cons hgroup hgroups, rfl⟩

/-- The page of a document consists of the nodes of its items, in order, except that the `html` form
stands there as one element, that of the compiled form. -/
theorem compile_replaces_html {shape : Shape} {items : List Datum} {options : CompileOptions}
    {bundle : Bundle} (hdocument : (Datum.seq shape items).role ≠ .html)
    (h : compile (.seq shape items) options = .ok bundle) :
    ∃ front html back compiled attrs inner frontNodes backNodes,
      items = front ++ html :: back ∧ html.role = .html ∧ (∀ v ∈ front ++ back, v.role ≠ .html) ∧
      IsCompiledHtml options html compiled ∧
      List.Forall₂ (fun v nodes => toMarkup v = .ok nodes) front frontNodes ∧
      toMarkup compiled = .ok [.element "html" attrs inner] ∧
      List.Forall₂ (fun v nodes => toMarkup v = .ok nodes) back backNodes ∧
      Node.page? options.doctype
        (frontNodes.flatten ++ .element "html" attrs inner :: backNodes.flatten) =
          .ok bundle.markup := by
  unfold compile at h
  obtain ⟨p, hplan, hrender⟩ := bind_eq_ok h
  obtain ⟨forms, nodes, hforms, hnodes, hmarkup, -⟩ := render_eq_ok hrender
  obtain ⟨front, back, html, rfl, hrole, hother, hcompiled, rfl⟩ :=
    compiledForms_seq hdocument hplan hforms
  obtain ⟨frontPart, rest, hfront, hrest, rfl⟩ := listMarkup_append hnodes
  obtain ⟨page, backPart, hpage, hback, rfl⟩ := listMarkup_cons hrest
  obtain ⟨frontNodes, hfrontNodes, rfl⟩ := listMarkup_groups hfront
  obtain ⟨backNodes, hbackNodes, rfl⟩ := listMarkup_groups hback
  have hhtml := isCompiledHtml_of_plan hplan hcompiled
  obtain ⟨attrs, inner, rfl⟩ := hhtml.toMarkup_eq_ok hpage
  exact ⟨front, p.html, back, html, attrs, inner, frontNodes, backNodes, rfl, hrole, hother, hhtml,
    hfrontNodes, hpage, hbackNodes, hmarkup⟩

/-- Equal copies of the page, one before it and one behind it, keep what they hold. -/
theorem compile_replaces_html_copies :
    ∃ html options bundle compiled attrs inner front back,
      html = .call "html" [.map [(.keyword "lang", .str "en")], .call "head" [],
        .call "body" [.call "ns" [.symbol "my-app.core"], .call "card" [.str "x"]]] ∧
      compile (.list [.call "div" [html], html, .call "p" [html]]) options = .ok bundle ∧
      IsCompiledHtml options html compiled ∧ toMarkup (.call "div" [html]) = .ok front ∧
      toMarkup compiled = .ok [.element "html" attrs inner] ∧
      toMarkup (.call "p" [html]) = .ok back ∧
      Node.page? options.doctype (front ++ .element "html" attrs inner :: back) =
        .ok bundle.markup := by
  obtain ⟨html, hhtml⟩ : ∃ v, v = Datum.call "html" [.map [(.keyword "lang", .str "en")],
    .call "head" [], .call "body" [.call "ns" [.symbol "my-app.core"], .call "card" [.str "x"]]] :=
      ⟨_, rfl⟩
  have hrole : html.role = .html := by
    rw [hhtml]
    rfl
  obtain ⟨bundle, hbundle⟩ : ∃ bundle, compile (.list [.call "div" [html], html, .call "p" [html]])
      ⟨"main.js", none, 40, some "html"⟩ = .ok bundle := by
    apply exists_of_isOk
    rw [hhtml]
    decide +kernel
  have hdocument : (Datum.list [.call "div" [html], html, .call "p" [html]]).role ≠ .html := by
    intro h
    cases h
  obtain ⟨front, html', back, compiled, attrs, inner, frontNodes, backNodes, hitems, hrole', hother,
    hcompiled, hfront, hpage, hback, hmarkup⟩ := compile_replaces_html hdocument hbundle
  rcases front with _ | ⟨first, _ | ⟨second, front⟩⟩
  · cases hitems
    cases hrole'
  · cases hitems
    obtain ⟨frontPart, _, hdiv, hnone, rfl⟩ := List.forall₂_cons_left_iff.1 hfront
    cases hnone
    obtain ⟨backPart, _, hp, hnone, rfl⟩ := List.forall₂_cons_left_iff.1 hback
    cases hnone
    simp only [List.flatten_cons, List.flatten_nil, List.append_nil] at hmarkup
    exact ⟨_, _, bundle, compiled, attrs, inner, frontPart, backPart, hhtml, hbundle, hcompiled,
      hdiv, hpage, hp, hmarkup⟩
  · obtain ⟨rfl, -⟩ := List.cons.inj (List.cons.inj hitems).2
    exact absurd hrole (hother html (by simp))

end Page

end PageForms
