import PageForms.Proofs.Page.Boot
import PageForms.Proofs.Page.KnownTags

/-!
# The tags of a compiled page

The elements of a page have registered tags exactly if those of the forms that were compiled into it
have: the children of the body and the forms beside the body. A page in a document that is a map is
not compiled at all, so there the `html` form is taken as it is.
-/

namespace PageForms.Page

open Datum

def formTagsKnown (v : Datum) : Bool :=
  match Stylesheet.compileAll v with
  | .ok styled => styled.tagsKnown
  | .error _ => false

def Plan.surroundings (p : Plan) : List Datum :=
  match p.html with
  | .seq _ (_ :: kids) => kids.filter fun v => v.role != .body
  | _ => []

/-- The forms of the page come to elements with registered tags. -/
def Plan.tagsKnown (p : Plan) : Bool :=
  if p.document.isMap then p.html.tagsKnownAsIs
  else p.content.all formTagsKnown && p.surroundings.all formTagsKnown

/-! ## Parts of the page -/

private theorem all_of_toPageForm {v w : Datum} {nodes : List Node} (hw : toPageForm v = .ok w)
    (h : toMarkup w = .ok nodes) : nodes.all Node.tagsRegistered = formTagsKnown v := by
  unfold toPageForm at hw
  obtain ⟨styled, hstyled, hw⟩ := bind_eq_ok hw
  cases hw
  rw [formTagsKnown, hstyled]
  exact decides_tagsKnown styled nodes h

private theorem listMarkup_toPageForm {vs ws : List Datum} {nodes : List Node}
    (hws : vs.mapM toPageForm = .ok ws) (h : listMarkup ws = .ok nodes) :
    nodes.all Node.tagsRegistered = vs.all formTagsKnown := by
  induction vs generalizing ws nodes with
  | nil =>
      cases hws
      cases h
      rfl
  | cons v vs ih =>
      obtain ⟨w, rest', hw, hrest', rfl⟩ := mapM_cons_eq_ok hws
      obtain ⟨front, rest, hfront, hrest, rfl⟩ := listMarkup_cons h
      rw [List.all_append, List.all_cons, ih hrest' hrest, all_of_toPageForm hw hfront]

/-- Only a map is turned into a map. -/
theorem formTagsKnown_of_toPageForm_map {v : Datum} {es : Entries}
    (h : toPageForm v = .ok (.map es)) : formTagsKnown v = true := by
  unfold toPageForm at h
  obtain ⟨styled, hstyled, h⟩ := bind_eq_ok h
  have heq : styled.withAttributes.withKnownTags = .map es := Except.ok.inj h
  have hmap : styled = .map es := by
    rcases withKnownTags_cases styled.withAttributes with ⟨_, _, _, _, -, -, hform⟩ | ⟨hsame, -⟩
    · rw [hform] at heq
      cases heq
    · rw [hsame] at heq
      rcases withAttributes_cases styled with ⟨_, _, _, _, -, -, -, hform⟩ | ⟨hsame', -⟩
      · rw [hform] at heq
        cases heq
      · rwa [hsame'] at heq
  rw [formTagsKnown, hstyled, hmap]
  rfl

private theorem listMarkup_kept {vs ws kept : List Datum} {nodes : List Node}
    (hws : vs.mapM toPageForm = .ok ws) (hkept : ws = kept ∨ ∃ es, ws = .map es :: kept)
    (h : listMarkup kept = .ok nodes) :
    nodes.all Node.tagsRegistered = vs.all formTagsKnown := by
  rcases hkept with rfl | ⟨es, rfl⟩
  · exact listMarkup_toPageForm hws h
  · cases vs with
    | nil => cases hws
    | cons v vs =>
        obtain ⟨w, ws, hw, hws, heq⟩ := mapM_cons_eq_ok hws
        cases heq
        rw [List.all_cons, formTagsKnown_of_toPageForm_map hw, Bool.true_and]
        exact listMarkup_toPageForm hws h

private theorem bootScripts_tagsKnown (path jsUri : String) (baseUri : Option String) :
    (bootScripts path jsUri baseUri).all tagsKnownAsIs = true := by
  have hscript : Tag.isRegistered (Tag.elementName "script") = true := by decide
  have hinline : ∀ text, tagsKnownAsIs (inlineScript text) = true := by
    intro text
    rw [inlineScript, Datum.call, tagsKnownAsIs_symbol, hscript]
    rfl
  have hloaded : ∀ uri, tagsKnownAsIs (loadedScript uri) = true := by
    intro uri
    rw [loadedScript, Datum.call, tagsKnownAsIs_symbol, hscript]
    rfl
  unfold bootScripts
  simp only
  split <;> simp [hinline, hloaded]

/-- The compiled page has registered tags if its forms have. -/
theorem toMarkup_compiledHtml_all {p : Plan} {options : CompileOptions} {shape : Shape}
    {body html : Datum} {kids : List Datum} {nodes : List Node}
    (hhtml : p.html = .seq shape (.symbol "html" :: kids))
    (hbody : kids.filter (fun v => v.role == .body) = [body])
    (hcompiled : p.compiledHtml options = .ok html) (h : toMarkup html = .ok nodes) :
    nodes.all Node.tagsRegistered =
      (p.content.all formTagsKnown && p.surroundings.all formTagsKnown) := by
  obtain ⟨before, after, before', after', content, rfl, hother, hcontent, hbefore, hafter, rfl⟩ :=
    compiledHtml_eq_ok hhtml hbody hcompiled
  obtain ⟨attrs, kept, front, bodyNodes, back, hkept, hfront, hbodyNodes, hback, rfl⟩ :=
    toMarkup_compiledHtml h
  obtain ⟨bodyAttrs, inner, scripts, hinner, hscripts, rfl⟩ := toMarkup_compiledBody hbodyNodes
  have hscriptTags : scripts.all Node.tagsRegistered = true := by
    rw [← bootScripts_tagsKnown (objectPath p.name) options.jsUri options.baseUri]
    apply listMarkup_all (f := id) fun v _ => decides_tagsKnownAsIs v
    rwa [List.map_id]
  have hsurroundings : p.surroundings = before ++ after := by
    have hbodyRole := (role_of_filter hbody).2
    have hkeep : ∀ vs : List Datum, (∀ v ∈ vs, v.role ≠ .body) →
        vs.filter (fun v => v.role != .body) = vs := by
      intro vs hvs
      rw [List.filter_eq_self]
      intro v hv
      simpa using hvs v hv
    rw [Plan.surroundings, hhtml]
    simp only
    rw [List.filter_append, List.filter_cons_of_neg (by simp [hbodyRole]),
      hkeep before fun v hv => hother v (by simp [hv]),
      hkeep after fun v hv => hother v (by simp [hv])]
  have hhtmlTag : Tag.isRegistered "html" = true := by decide
  have hbodyTag : Tag.isRegistered "body" = true := by decide
  rw [all_singleton_element, hhtmlTag, List.all_append, List.all_append, all_singleton_element,
    hbodyTag, List.all_append, hscriptTags, listMarkup_kept hbefore hkept hfront,
    listMarkup_toPageForm hafter hback, listMarkup_toPageForm hcontent hinner, hsurroundings,
    List.all_append]
  cases p.content.all formTagsKnown <;> simp

/-! ## The page in its document -/

/-- What a plan is made of: the page in its document, the attributes of its body, and behind them
the declaration, which gives the name, and the content of the module. -/
theorem plan_eq_ok {document : Datum} {p : Plan} (h : plan document = .ok p) :
    p.document = document ∧ findHtml document = .ok p.html ∧
      ∃ body items declaration, bodyOf p.html = .ok body ∧ body.items = .ok items ∧
        childrenIn items = declaration :: p.content ∧
        Module.assemble declaration p.content = .ok p.code ∧ declaration.role = .namespace ∧
        Namespace.name declaration = .ok p.name ∧ p.attributes = (attributesIn items).getD [] := by
  unfold plan at h
  obtain ⟨html, hhtml, h⟩ := bind_eq_ok h
  obtain ⟨body, hbody, h⟩ := bind_eq_ok h
  obtain ⟨items, hitems, h⟩ := bind_eq_ok h
  split at h
  · cases h
  · next declaration content hchildren =>
    split at h
    · next hrole =>
      obtain ⟨code, hcode, h⟩ := bind_eq_ok h
      obtain ⟨name, hname, h⟩ := bind_eq_ok h
      cases h
      exact ⟨rfl, hhtml, body, items, declaration, hbody, hitems, hchildren, hcode,
        beq_iff_eq.1 hrole, hname, rfl⟩
    · cases h

theorem findHtml_eq_ok {document html : Datum} (h : findHtml document = .ok html) :
    (document.role = .html ∧ html = document) ∨
    (document.role ≠ .html ∧ ∃ items, document.items = .ok items ∧
      items.filter (fun v => v.role == .html) = [html]) := by
  unfold findHtml at h
  split at h
  · next hrole =>
    cases h
    exact .inl ⟨beq_iff_eq.1 hrole, rfl⟩
  · next hrole =>
    obtain ⟨items, hitems, h⟩ := bind_eq_ok h
    exact .inr ⟨by simpa using hrole, items, hitems, findUnique_eq_ok h⟩

theorem html_of_plan {document : Datum} {p : Plan} (h : plan document = .ok p) :
    ∃ shape kids body, p.html = .seq shape (.symbol "html" :: kids) ∧
      kids.filter (fun v => v.role == .body) = [body] := by
  obtain ⟨-, hhtml, body, -, -, hbody, -⟩ := plan_eq_ok h
  have hrole : p.html.role = .html := by
    rcases findHtml_eq_ok hhtml with ⟨hrole, heq⟩ | ⟨-, items, -, hfilter⟩
    · rwa [heq]
    · exact (role_of_filter hfilter).2
  obtain ⟨shape, kids, hkids, -⟩ := eq_seq_of_role hrole (by decide)
  obtain ⟨items, hitems, hfilter⟩ := bodyOf_eq_ok hbody
  rw [hkids] at hitems
  cases hitems
  exact ⟨shape, kids, body, hkids, hfilter⟩

/-- If one of some forms is the page, the only `html` element among their nodes is the page's. -/
theorem html_of_listMarkup {forms : List Datum} {html : Datum} {nodes : List Node}
    (hforms : forms.filter (fun v => v.role == .html) = [html]) (h : listMarkup forms = .ok nodes) :
    ∃ page, toMarkup html = .ok [page] ∧ page ∈ nodes ∧ page.isElement "html" = true ∧
      ∀ n ∈ nodes, n.isElement "html" = true → n = page := by
  obtain ⟨before, after, rfl, hrole, hkept⟩ := exists_split_of_filter hforms
  obtain ⟨shape, xs, rfl, hshape⟩ := eq_seq_of_role (beq_iff_eq.1 hrole) (by decide)
  obtain ⟨front, more, hfront, hmore, rfl⟩ := listMarkup_append h
  obtain ⟨middle, back, hmiddle, hback, rfl⟩ := listMarkup_cons hmore
  have hother : ∀ {vs : List Datum} {ns : List Node}, (∀ v ∈ vs, v.role ≠ .html) →
      listMarkup vs = .ok ns → ∀ n ∈ ns, n.isElement "html" = false := by
    intro vs ns hvs hns n hn
    obtain ⟨v, hv, ms, hms, hn⟩ := exists_of_mem_listMarkup hns n hn
    cases helement : n.isElement "html" with
    | false => rfl
    | true => exact absurd (role_of_isElement (.inl rfl) hms hn helement) (hvs v hv)
  have hmarkup := hmiddle
  rw [toMarkup_call hshape] at hmarkup
  obtain ⟨attrs, inner, -, rfl⟩ := elementMarkup_eq_ok rfl hmarkup
  refine ⟨_, hmiddle, by simp, rfl, ?_⟩
  intro n hn helement
  simp only [List.mem_append, List.mem_singleton] at hn
  rcases hn with hn | hn | hn
  · rw [hother (fun v hv => by simpa using hkept v (by simp [hv])) hfront n hn] at helement
    cases helement
  · exact hn
  · rw [hother (fun v hv => by simpa using hkept v (by simp [hv])) hback n hn] at helement
    cases helement

/-- The forms of a compiled page hold one `html` form: the compiled one, or, if the document is a
map, the one it was compiled from. -/
theorem compiledForms_eq_ok {document : Datum} {p : Plan} {options : CompileOptions}
    {forms : List Datum} (hplan : plan document = .ok p)
    (h : p.compiledForms options = .ok forms) :
    ∃ html, p.compiledHtml options = .ok html ∧
      forms.filter (fun v => v.role == .html) = [if document.isMap then p.html else html] := by
  obtain ⟨hdocument, hhtml, -⟩ := plan_eq_ok hplan
  obtain ⟨shape, kids, body, hkids, hfilter⟩ := html_of_plan hplan
  unfold Plan.compiledForms at h
  obtain ⟨html, hcompiled, h⟩ := bind_eq_ok h
  obtain ⟨_, _, _, _, _, -, -, -, -, -, rfl⟩ := compiledHtml_eq_ok hkids hfilter hcompiled
  refine ⟨_, hcompiled, ?_⟩
  rw [hdocument] at h
  rcases findHtml_eq_ok hhtml with ⟨hrole, heq⟩ | ⟨hrole, items, hitems, hunique⟩
  · rw [hrole, if_pos (by rfl)] at h
    cases h
    obtain ⟨_, _, rfl, -⟩ := eq_seq_of_role hrole (by decide)
    rfl
  · rw [if_neg (by simpa using hrole)] at h
    cases document with
    | seq shape xs =>
        cases hitems
        cases h
        exact filter_replaceRole hunique rfl
    | map es =>
        cases hitems
        cases h
        exact hunique
    | str s =>
        cases hitems
        obtain ⟨hmem, hrole⟩ := role_of_filter hunique
        obtain ⟨c, -, hc⟩ := List.mem_map.1 hmem
        rw [← hc] at hrole
        cases hrole
    | _ => cases hitems

/-- The elements of a form in a page have registered tags exactly if `formTagsKnown` says so, and so
they do if only calls with a symbol at their head have an attribute map. The page of a compiled
document has elements with registered tags exactly if the forms have that it is made of. -/
theorem tagsRegistered_iff_tagsKnown (v document : Datum) (options : CompileOptions) :
    (∀ nodes, (toPageForm v >>= toMarkup) = .ok nodes →
      ((∀ n ∈ nodes, n.tagsRegistered = true) ↔ formTagsKnown v = true)) ∧
    (∀ styled, Stylesheet.compileAll v = .ok styled → styled.headsNamed = true →
      formTagsKnown v = true) ∧
    ∀ bundle, compile document options = .ok bundle →
      ∃ p nodes page, plan document = .ok p ∧ Node.page? options.doctype nodes = .ok bundle.markup ∧
        (p.compiledForms options >>= listMarkup) = .ok nodes ∧
        page ∈ nodes ∧ (∀ n ∈ nodes, n.isElement "html" = true ↔ n = page) ∧
        (page.tagsRegistered = true ↔ p.tagsKnown = true) := by
  refine ⟨?_, ?_, ?_⟩
  · intro nodes h
    obtain ⟨w, hw, hnodes⟩ := bind_eq_ok h
    rw [← List.all_eq_true, all_of_toPageForm hw hnodes]
  · intro styled hstyled hnamed
    rw [formTagsKnown, hstyled]
    exact tagsKnown_of_headsNamed styled hnamed
  · intro bundle h
    unfold compile at h
    obtain ⟨p, hplan, hrender⟩ := bind_eq_ok h
    obtain ⟨forms, nodes, hforms, hnodes, hmarkup, -⟩ := render_eq_ok hrender
    obtain ⟨html, hcompiled, hfilter⟩ := compiledForms_eq_ok hplan hforms
    obtain ⟨shape, kids, body, hkids, hbody⟩ := html_of_plan hplan
    obtain ⟨page, hpage, hmem, helement, hunique⟩ := html_of_listMarkup hfilter hnodes
    refine ⟨p, nodes, page, hplan, hmarkup, ?_, hmem, ?_, ?_⟩
    · rw [hforms, ok_bind, hnodes]
    · intro n hn
      constructor
      · exact hunique n hn
      · rintro rfl
        exact helement
    · have hsingle : page.tagsRegistered = [page].all Node.tagsRegistered := by simp
      rw [hsingle, Plan.tagsKnown, (plan_eq_ok hplan).1]
      cases hmap : document.isMap with
      | true =>
          rw [hmap, if_pos rfl] at hpage
          rw [decides_tagsKnownAsIs p.html [page] hpage, if_pos rfl]
      | false =>
          rw [hmap, if_neg Bool.false_ne_true] at hpage
          rw [toMarkup_compiledHtml_all hkids hbody hcompiled hpage, if_neg Bool.false_ne_true]

theorem tagsRegistered_iff_tagsKnown_unknown :
    ∃ v nodes document bundle page,
      v = .call "foo" [.map [], .form [.str "x", .call "bar" []], .call "bar" []] ∧
      document = .call "html" [.call "body" [.call "ns" [.symbol "a"], v]] ∧
      (toPageForm v >>= toMarkup) = .ok nodes ∧ (∀ n ∈ nodes, n.tagsRegistered = true) ∧
      compile document ⟨"main.js", none, 20, some "html"⟩ = .ok bundle ∧
      (∃ nodes, Node.page? (some "html") nodes = .ok bundle.markup ∧ page ∈ nodes) ∧
      page.isElement "html" = true ∧ page.tagsRegistered = true := by
  obtain ⟨v, hv⟩ : ∃ v, v = Datum.call "foo" [.map [], .form [.str "x", .call "bar" []],
    .call "bar" []] := ⟨_, rfl⟩
  obtain ⟨document, hdocument⟩ : ∃ d, d = Datum.call "html" [.call "body" [
    .call "ns" [.symbol "a"], v]] := ⟨_, rfl⟩
  obtain ⟨hform, hnamed, hpage⟩ :=
    tagsRegistered_iff_tagsKnown v document ⟨"main.js", none, 20, some "html"⟩
  have hmarkup : (toPageForm v >>= toMarkup) =
      .ok [.element "div" [] [.text "(\"x\" (bar))", .element "div" [] []]] := by
    rw [hv]
    rfl
  have hknown : formTagsKnown v = true := by
    rw [hv] at hnamed ⊢
    exact hnamed _ rfl (by decide +kernel)
  have hok : (compile document ⟨"main.js", none, 20, some "html"⟩).isOk = true := by
    rw [hdocument, hv]
    decide +kernel
  have hplanned : (plan document).map Plan.tagsKnown = .ok true := by
    rw [hdocument, hv]
    decide +kernel
  cases hcompile : compile document ⟨"main.js", none, 20, some "html"⟩ with
  | error fault =>
      rw [hcompile] at hok
      cases hok
  | ok bundle =>
      obtain ⟨p, nodes, page, hplan, hbundle, -, hmem, hunique, hregistered⟩ :=
        hpage bundle hcompile
      rw [hplan] at hplanned
      exact ⟨v, _, document, bundle, page, hv, hdocument, hmarkup, (hform _ hmarkup).2 hknown,
        hcompile, ⟨nodes, hbundle, hmem⟩, (hunique page hmem).2 rfl,
        hregistered.2 (Except.ok.inj hplanned)⟩

/-- A form with a string at its head is no element to the first pass and one to the second, so what
stands below it keeps an unknown tag. -/
theorem tagsRegistered_fails_under_string :
    Tag.isRegistered "foo" = false ∧
    (toPageForm (.form [.str "x", .map [], .call "foo" []]) >>= toMarkup) =
      .ok [.element "div" [] [.element "foo" [] []]] ∧
    ∃ document options scripts,
      document = .call "html" [.call "body" [.call "ns" [.symbol "a"],
        .form [.str "x", .map [], .call "foo" []]]] ∧
      (compile document options).isOk = true ∧
      (plan document >>= fun p => p.compiledForms options >>= listMarkup) =
        .ok [.element "html" [] [.element "body" []
          (.element "div" [] [.element "foo" [] []] :: scripts)]] := by
  refine ⟨by decide, rfl, _, ⟨"main.js", none, 20, some "html"⟩, _, rfl, ?_, rfl⟩
  decide +kernel

end PageForms.Page
