import PageForms.Proofs.Page.Lift
import PageForms.Proofs.Page.Nodes

/-!
# The page starts its module

The last thing in the body of a compiled page is the script that calls the entry point of the
module, and the page has no second body.
-/

namespace PageForms

open Datum

/-! ## What becomes a body was one -/

namespace Datum

private theorem eq_of_elementName_eq {name tag : String} (h : Tag.elementName name = tag)
    (htag : tag ∉ Tag.clashing) : name = tag := by
  unfold Tag.elementName at h
  split at h
  · next tag' hfind =>
    have hmem := List.mem_of_find?_eq_some hfind
    subst h
    exact absurd hmem htag
  · exact h

/-- Only a form with the role of the page or its body stands for such an element. -/
theorem role_of_isElement {v : Datum} {nodes : List Node} {r : Role} (hr : r = .html ∨ r = .body)
    (h : toMarkup v = .ok nodes) {n : Node} (hn : n ∈ nodes)
    (helement : n.isElement r.name = true) :
    v.role = r := by
  cases hv : v.element? with
  | none =>
      obtain ⟨s, rfl | rfl⟩ := toMarkup_of_element?_eq_none hv h n hn <;> cases helement
  | some e =>
      obtain ⟨name, kids⟩ := e
      obtain ⟨attrs, inner, -, rfl⟩ := toMarkup_of_element? hv h
      obtain ⟨shape, xs, rfl, hshape, -, -⟩ := eq_seq_of_element? hv
      rw [List.mem_singleton.1 hn] at helement
      rcases hr with rfl | rfl
      all_goals
        obtain rfl := eq_of_elementName_eq (beq_iff_eq.1 helement) (by decide)
        exact role_seq_cons hshape _ xs

private theorem role_withAttributes (v : Datum) : v.withAttributes.role = v.role := by
  unfold withAttributes
  split
  · split
    · next hcall =>
      simp only [Bool.and_eq_true] at hcall
      exact role_congr_tail rfl hcall.1 _ _ _
    · rfl
  · split
    · next hcall =>
      simp only [Bool.and_eq_true] at hcall
      exact role_congr_tail rfl hcall.1 _ _ _
    · rfl
  · rfl

private theorem role_of_withKnownTags {v : Datum} (h : v.withKnownTags.role = .body) :
    v.role = .body := by
  unfold withKnownTags at h
  split at h
  · next shape head es xs =>
    split at h
    · next hshape =>
      obtain ⟨shape', ys, hform, -⟩ := eq_seq_of_role h (by decide)
      have hhead : knownHead head = .symbol "body" := (List.cons.inj (Datum.seq.inj hform).2).1
      unfold knownHead at hhead
      split at hhead
      · rw [hhead]
        exact role_seq_cons hshape _ _
      · simp at hhead
    · exact h
  · exact h

end Datum

namespace Stylesheet

private theorem compileForm_cases {v w : Datum} (h : compileForm v = .ok w) :
    w = v ∨ ∃ xs, w = .call "style" xs := by
  unfold compileForm at h
  obtain ⟨rest, -, h⟩ := bind_eq_ok h
  obtain ⟨items, -, h⟩ := bind_eq_ok h
  simp only at h
  split at h
  · obtain ⟨css, -, h⟩ := bind_eq_ok h
    cases h
    exact .inr ⟨_, rfl⟩
  · cases h
    exact .inl rfl

/-- Compiling styles makes no symbols. -/
theorem eq_symbol_of_compileAll {v : Datum} {name : String}
    (h : compileAll v = .ok (.symbol name)) : v = .symbol name := by
  unfold compileAll at h
  cases v with
  | seq shape xs =>
      rw [replaceWhere] at h
      split at h
      · rcases compileForm_cases h with h | ⟨ys, h⟩ <;> cases h
      · obtain ⟨ys, -, h⟩ := map_eq_ok h
        cases h
  | symbol s =>
      cases h
      rfl
  | _ => cases h

theorem role_of_compileAll {v w : Datum} (h : compileAll v = .ok w) (hw : w.role = .body) :
    v.role = .body := by
  obtain ⟨shape, ys, rfl, hshape⟩ := eq_seq_of_role hw (by decide)
  cases v with
  | seq shape' xs =>
      unfold compileAll at h
      rw [replaceWhere] at h
      split at h
      · rcases compileForm_cases h with h | ⟨zs, h⟩
        · rw [← h]
          exact hw
        · rw [h] at hw
          cases hw
      · obtain ⟨zs, hzs, heq⟩ := map_eq_ok h
        cases heq
        cases xs with
        | nil => cases hzs
        | cons x xs =>
            rw [replaceWhereIn] at hzs
            obtain ⟨y, hy, hzs⟩ := bind_eq_ok hzs
            obtain ⟨_, -, hzs⟩ := bind_eq_ok hzs
            cases hzs
            rw [eq_symbol_of_compileAll hy]
            exact role_seq_cons hshape _ xs
  | _ => cases h

end Stylesheet

namespace Page

/-! ## The body -/

def startElement (name : String) : Node :=
  .element "script" [("type", some scriptType)] [.text (objectPath name ++ ".hlispinit();")]

private theorem bootScripts_last (path jsUri : String) (baseUri : Option String) :
    ∃ front, bootScripts path jsUri baseUri =
      front ++ [inlineScript (path ++ "." ++ entryPointName ++ "();")] := by
  unfold bootScripts
  simp only
  split
  · exact ⟨[_, _, _], rfl⟩
  · exact ⟨[_, _, _], rfl⟩
  · exact ⟨[_, _, _, _], rfl⟩

private theorem toMarkup_start (name : String) :
    toMarkup (inlineScript (objectPath name ++ "." ++ entryPointName ++ "();")) =
      .ok [startElement name] := by
  rw [String.append_assoc, String.append_assoc]
  rfl

private theorem listMarkup_bootScripts {name jsUri : String} {baseUri : Option String}
    {nodes : List Node} (h : listMarkup (bootScripts (objectPath name) jsUri baseUri) = .ok nodes) :
    ∃ front, nodes = front ++ [startElement name] := by
  obtain ⟨scripts, hscripts⟩ := bootScripts_last (objectPath name) jsUri baseUri
  rw [hscripts] at h
  obtain ⟨front, last, -, hlast, rfl⟩ := listMarkup_append h
  obtain ⟨start, rest, hstart, hrest, rfl⟩ := listMarkup_cons hlast
  rw [toMarkup_start] at hstart
  cases hstart
  cases hrest
  exact ⟨front, rfl⟩

/-! ## The page -/

private theorem role_of_toPageForm {v w : Datum} (h : toPageForm v = .ok w) (hw : w.role = .body) :
    v.role = .body := by
  unfold toPageForm at h
  obtain ⟨styled, hstyled, h⟩ := bind_eq_ok h
  cases h
  have hstyledRole := role_of_withKnownTags hw
  rw [role_withAttributes] at hstyledRole
  exact Stylesheet.role_of_compileAll hstyled hstyledRole

def compiledBody (p : Plan) (options : CompileOptions) (content : List Datum) : Datum :=
  .call "body" (.map p.attributes :: content ++
    bootScripts (objectPath p.name) options.jsUri options.baseUri)

/-- The compiled page is the old one with its body replaced and everything around it turned into
forms of the page. -/
theorem compiledHtml_eq_ok {p : Plan} {options : CompileOptions} {shape : Shape} {body html : Datum}
    {kids : List Datum} (hhtml : p.html = .seq shape (.symbol "html" :: kids))
    (hbody : kids.filter (fun v => v.role == .body) = [body])
    (h : p.compiledHtml options = .ok html) :
    ∃ before after before' after' content,
      kids = before ++ body :: after ∧ (∀ v ∈ before ++ after, v.role ≠ .body) ∧
      p.content.mapM toPageForm = .ok content ∧ before.mapM toPageForm = .ok before' ∧
      after.mapM toPageForm = .ok after' ∧
      html = .form (.symbol "html" :: (before' ++ compiledBody p options content :: after')) := by
  obtain ⟨before, after, rfl, hrole, hkept⟩ := exists_split_of_filter hbody
  unfold Plan.compiledHtml at h
  obtain ⟨content, hcontent, h⟩ := bind_eq_ok h
  rw [hhtml, Datum.items] at h
  simp only [ok_bind] at h
  obtain ⟨kids', hkids, h⟩ := bind_eq_ok h
  cases h
  obtain ⟨before', rest, hbefore', hrest, rfl⟩ := mapM_append_eq_ok hkids
  obtain ⟨body', after', hbody', hafter', rfl⟩ := mapM_cons_eq_ok hrest
  rw [if_pos hrole] at hbody'
  cases hbody'
  have hother : ∀ v ∈ before ++ after, v.role ≠ .body := by
    intro v hv
    simpa using hkept v hv
  refine ⟨before, after, before', after', content, rfl, hother, hcontent, ?_, ?_, rfl⟩
  · rw [← hbefore']
    apply mapM_congr
    intro v hv
    rw [if_neg (by simpa using hother v (by simp [hv]))]
  · rw [← hafter']
    apply mapM_congr
    intro v hv
    rw [if_neg (by simpa using hother v (by simp [hv]))]

private theorem not_isElement_body {ws : List Datum} {nodes : List Node}
    (hws : ∀ w ∈ ws, ∃ v, v.role ≠ .body ∧ toPageForm v = .ok w) (h : listMarkup ws = .ok nodes) :
    ∀ n ∈ nodes, n.isElement "body" = false := by
  intro n hn
  obtain ⟨w, hw, ns, hns, hn⟩ := exists_of_mem_listMarkup h n hn
  obtain ⟨v, hv, hvw⟩ := hws w hw
  cases hbody : n.isElement "body" with
  | false => rfl
  | true => exact absurd (role_of_toPageForm hvw (role_of_isElement (.inr rfl) hns hn hbody)) hv

/-- The children of a form behind whatever stands before one of them, attributes apart. -/
theorem childrenIn_append (head : Datum) {body : Datum} (hbody : body.isMap = false)
    (before after : List Datum) :
    ∃ kept, (before = kept ∨ ∃ es, before = .map es :: kept) ∧
      childrenIn (head :: (before ++ body :: after)) = kept ++ body :: after := by
  cases before with
  | nil =>
      refine ⟨[], .inl rfl, ?_⟩
      cases body with
      | map => cases hbody
      | _ => rfl
  | cons x before =>
      cases x with
      | map es => exact ⟨before, .inr ⟨es, rfl⟩, rfl⟩
      | _ => exact ⟨_ :: before, .inl rfl, rfl⟩

theorem toMarkup_compiledBody {p : Plan} {options : CompileOptions} {content : List Datum}
    {nodes : List Node} (h : toMarkup (compiledBody p options content) = .ok nodes) :
    ∃ attrs inner scripts, listMarkup content = .ok inner ∧
      listMarkup (bootScripts (objectPath p.name) options.jsUri options.baseUri) = .ok scripts ∧
      nodes = [.element "body" attrs (inner ++ scripts)] := by
  rw [compiledBody, Datum.call, toMarkup_call rfl] at h
  obtain ⟨attrs, all, hall, rfl⟩ := elementMarkup_eq_ok rfl h
  obtain ⟨inner, scripts, hinner, hscripts, rfl⟩ := listMarkup_append hall
  exact ⟨attrs, inner, scripts, hinner, hscripts, rfl⟩

/-- The nodes of the compiled page: what stands before the body, the body and what stands behind
it. -/
theorem toMarkup_compiledHtml {p : Plan} {options : CompileOptions}
    {content before after : List Datum} {nodes : List Node}
    (h : toMarkup (.form (.symbol "html" :: (before ++ compiledBody p options content :: after))) =
      .ok nodes) :
    ∃ attrs kept front body back, (before = kept ∨ ∃ es, before = .map es :: kept) ∧
      listMarkup kept = .ok front ∧ toMarkup (compiledBody p options content) = .ok body ∧
      listMarkup after = .ok back ∧ nodes = [.element "html" attrs (front ++ (body ++ back))] := by
  rw [toMarkup_call rfl] at h
  obtain ⟨attrs, inner, hinner, rfl⟩ := elementMarkup_eq_ok rfl h
  obtain ⟨kept, hkept, hchildren⟩ := childrenIn_append (.symbol "html")
    (rfl : (compiledBody p options content).isMap = false) before after
  rw [hchildren] at hinner
  obtain ⟨front, more, hfront, hmore, rfl⟩ := listMarkup_append hinner
  obtain ⟨body, back, hbody, hback, rfl⟩ := listMarkup_cons hmore
  exact ⟨attrs, kept, front, body, back, hkept, hfront, hbody, hback, rfl⟩

/-- The nodes of a compiled page and the text of its module make up the bundle. -/
theorem render_eq_ok {p : Plan} {options : CompileOptions} {bundle : Bundle}
    (h : p.render options = .ok bundle) :
    ∃ forms nodes, p.compiledForms options = .ok forms ∧ listMarkup forms = .ok nodes ∧
      Node.page? options.doctype nodes = .ok bundle.markup ∧
      Module.text p.code options.width = .ok bundle.code := by
  unfold Plan.render at h
  obtain ⟨forms, hforms, h⟩ := bind_eq_ok h
  obtain ⟨nodes, hnodes, h⟩ := bind_eq_ok h
  obtain ⟨markup, hmarkup, h⟩ := bind_eq_ok h
  obtain ⟨code, hcode, h⟩ := bind_eq_ok h
  cases h
  exact ⟨forms, nodes, hforms, hnodes, hmarkup, hcode⟩

theorem compiledForms_of_role {p : Plan} {options : CompileOptions} {forms : List Datum}
    (hrole : p.document.role = .html) (h : p.compiledForms options = .ok forms) :
    ∃ html, p.compiledHtml options = .ok html ∧ forms = [html] := by
  unfold Plan.compiledForms at h
  obtain ⟨html, hcompiled, h⟩ := bind_eq_ok h
  rw [hrole, if_pos (by rfl)] at h
  cases h
  exact ⟨html, hcompiled, rfl⟩

/-- A page whose document is its `html` form consists of one `html` element, whose one body ends by
starting the module. -/
theorem markup_of_render {p : Plan} {options : CompileOptions} {bundle : Bundle} {shape : Shape}
    {body : Datum} {kids : List Datum} (hshape : shape.isCall = true)
    (hdocument : p.document = .seq shape (.symbol "html" :: kids)) (hhtml : p.html = p.document)
    (hbody : kids.filter (fun v => v.role == .body) = [body])
    (h : p.render options = .ok bundle) :
    ∃ attrs before bodyAttrs front after,
      Node.page? options.doctype [.element "html" attrs
        (before ++ .element "body" bodyAttrs (front ++ [startElement p.name]) :: after)] =
          .ok bundle.markup ∧
      ∀ n ∈ before ++ after, n.isElement "body" = false := by
  have hrole : p.document.role = .html := by
    rw [hdocument]
    exact role_seq_cons hshape _ kids
  obtain ⟨forms, nodes, hforms, hnodes, hmarkup, -⟩ := render_eq_ok h
  obtain ⟨html, hcompiled, rfl⟩ := compiledForms_of_role hrole hforms
  obtain ⟨before, after, before', after', content, -, hother, -, hbefore, hafter, rfl⟩ :=
    compiledHtml_eq_ok (hhtml.trans hdocument) hbody hcompiled
  obtain ⟨top, rest, htop, hrest, rfl⟩ := listMarkup_cons hnodes
  cases hrest
  obtain ⟨attrs, kept, front, bodyNodes, back, hkept, hfront, hbodyNodes, hback, rfl⟩ :=
    toMarkup_compiledHtml htop
  obtain ⟨bodyAttrs, inner, scripts, -, hscripts, rfl⟩ := toMarkup_compiledBody hbodyNodes
  obtain ⟨boot, rfl⟩ := listMarkup_bootScripts hscripts
  refine ⟨attrs, front, bodyAttrs, inner ++ boot, back, ?_, ?_⟩
  · rw [List.append_assoc]
    exact hmarkup
  intro n hn
  rcases List.mem_append.1 hn with hn | hn
  · apply not_isElement_body _ hfront n hn
    intro w hw
    have hw' : w ∈ before' := by
      rcases hkept with rfl | ⟨es, rfl⟩
      · exact hw
      · simp [hw]
    obtain ⟨v, hv, hvw⟩ := exists_of_mem_mapM hbefore w hw'
    exact ⟨v, hother v (by simp [hv]), hvw⟩
  · apply not_isElement_body _ hback n hn
    intro w hw
    obtain ⟨v, hv, hvw⟩ := exists_of_mem_mapM hafter w hw
    exact ⟨v, hother v (by simp [hv]), hvw⟩

end Page

end PageForms
