import PageForms.Proofs.Page.Declaration
import PageForms.Proofs.Page.LiftedSource
import PageForms.Proofs.Page.Substitution

/-!
# Compiling styles twice

A style form that is compiled is a style form still, and so is one that is left alone; neither
changes when styles are compiled once more. No other form becomes a style, so compiling the styles
of a value a second time changes nothing.

A page can therefore have its styles compiled beforehand. Its plan keeps the name of the namespace
and the attributes of the body, everything else of it has its styles compiled, and the page comes to
the same markup.
-/

namespace PageForms

open Datum

/-- Replacing again changes nothing if replacements stay as they are and no other sequence becomes a
match. -/
theorem Datum.replaceWhere_again {p : Datum → Bool} {f : Datum → Except Fault Datum}
    (hf : ∀ v w, p v = true → f v = .ok w → p w = true ∧ f w = .ok w)
    (hp : ∀ shape xs ys, p (.seq shape xs) = false →
      List.Forall₂ (fun x y => x.replaceWhere p f = .ok y) xs ys → p (.seq shape ys) = false)
    {v w : Datum} (h : v.replaceWhere p f = .ok w) : w.replaceWhere p f = .ok w := by
  induction v using induction_items generalizing w with
  | step v ih =>
      apply replaceWhere_eq_ok_iff.2
      rcases replaceWhere_eq_ok_iff.1 h with ⟨hv, h⟩ | ⟨shape, xs, ys, rfl, hv, rfl, hys⟩ |
        ⟨hv, hleaf, rfl⟩
      · exact .inl (hf v w hv h)
      · refine .inr (.inl ⟨shape, ys, ys, rfl, hp shape xs ys hv hys, rfl, ?_⟩)
        rw [List.forall₂_same]
        exact forall_mem_of_forall₂ hys fun x hx y hxy => ih shape xs rfl x hx hxy
      · exact .inr (.inr ⟨hv, hleaf, rfl⟩)

/-! ## Styles -/

namespace Datum

private theorem eq_map_of_isMap {v : Datum} (h : v.isMap = true) : ∃ es, v = .map es := by
  cases v with
  | map es => exact ⟨es, rfl⟩
  | _ => cases h

private theorem attributesIn_cons_of_not_isMap {head x : Datum} (h : x.isMap = false)
    (xs : List Datum) :
    attributesIn (head :: x :: xs) = none := by
  cases x with
  | map => cases h
  | _ => rfl

private theorem childrenIn_cons_of_not_isMap {head x : Datum} (h : x.isMap = false)
    (xs : List Datum) :
    childrenIn (head :: x :: xs) = x :: xs := by
  cases x with
  | map => cases h
  | _ => rfl

end Datum

namespace Stylesheet

private theorem compileForm_compiledForm (css : String) :
    compileForm (compiledForm css) = .ok (compiledForm css) := by
  apply compileForm_of_other
  intro first rest h
  cases h

/-- A style form becomes one that stays as it is. -/
theorem compileForm_again {v w : Datum} (hv : v.isCallOf "style" = true)
    (h : compileForm v = .ok w) : w.isCallOf "style" = true ∧ compileForm w = .ok w := by
  obtain ⟨shape, items, rfl, -⟩ := isCallOf_eq_true_iff.1 hv
  by_cases hvector : ∃ first rest, bodyOf items = .vector first :: rest
  · obtain ⟨first, rest, hbody⟩ := hvector
    rw [compileForm_of_vector shape hbody] at h
    obtain ⟨css, -, rfl⟩ := map_eq_ok h
    exact ⟨rfl, compileForm_compiledForm css⟩
  · have hsame : compileForm (.seq shape (.symbol "style" :: items)) =
        .ok (.seq shape (.symbol "style" :: items)) :=
      compileForm_of_other shape fun first rest hbody => hvector ⟨first, rest, hbody⟩
    rw [hsame] at h
    cases h
    exact ⟨hv, hsame⟩

/-- A sequence does not become a style form by compiling the styles of its items. -/
theorem isCallOf_style_of_items {shape : Shape} {xs ys : List Datum}
    (h : (seq shape xs).isCallOf "style" = false)
    (hys : List.Forall₂ (fun x y => compileAll x = .ok y) xs ys) :
    (seq shape ys).isCallOf "style" = false := by
  apply Bool.eq_false_iff.2
  intro hstyle
  obtain ⟨_, items, heq, hshape⟩ := isCallOf_eq_true_iff.1 hstyle
  cases heq
  obtain ⟨x, rest, hx, -, rfl⟩ := List.forall₂_cons_right_iff.1 hys
  obtain rfl := eq_symbol_of_compileAll hx
  rw [isCallOf_eq_true_iff.2 ⟨shape, rest, rfl, hshape⟩] at h
  cases h

private theorem compileAll_again {v w : Datum} (h : compileAll v = .ok w) :
    compileAll w = .ok w := by
  have hitems : ∀ shape xs ys, (seq shape xs).isCallOf "style" = false →
      List.Forall₂ (fun x y => x.replaceWhere (isCallOf "style") compileForm = .ok y) xs ys →
      (seq shape ys).isCallOf "style" = false := by
    intro shape xs ys hxs hys
    simp only [← compileAll_eq] at hys
    exact isCallOf_style_of_items hxs hys
  rw [compileAll_eq] at h ⊢
  exact replaceWhere_again (fun _ _ => compileForm_again) hitems h

/-- A call of another symbol has its styles compiled if its items have. -/
theorem exists_compileAll_call {name : String} (hname : name ≠ "style") {shape : Shape}
    {xs : List Datum} (h : ∀ x ∈ xs, ∃ y, compileAll x = .ok y) :
    ∃ w, compileAll (.seq shape (.symbol name :: xs)) = .ok w := by
  obtain ⟨ys, hys⟩ := exists_forall₂ h
  have hstyle : (seq shape (.symbol name :: xs)).isCallOf "style" = false := by
    simp [isCallOf, hname]
  simp only [compileAll_eq] at hys ⊢
  exact ⟨_, replaceWhere_eq_ok_iff.2 (.inr (.inl ⟨shape, _, _, rfl, hstyle, rfl, .cons rfl hys⟩))⟩

private theorem compileAll_map (es : Entries) : compileAll (.map es) = .ok (.map es) := rfl

private theorem exists_compileAll_of_writable {v : Datum} (h : v.writable = true) :
    ∃ w, compileAll v = .ok w := by
  obtain ⟨w, hw, -⟩ := replaceWhere_succeeds
    (fun u hu => compileForm_succeeds (beq_iff_eq.1 hu)) v h
  exact ⟨w, hw⟩

private theorem isMap_compileAll {v w : Datum} (h : compileAll v = .ok w) : w.isMap = v.isMap := by
  rw [compileAll_eq] at h
  rcases replaceWhere_eq_ok_iff.1 h with ⟨hv, h⟩ | ⟨shape, xs, ys, rfl, -, rfl, -⟩ | ⟨-, -, rfl⟩
  · obtain ⟨_, _, rfl, -⟩ := isCallOf_eq_true_iff.1 (compileForm_again hv h).1
    obtain ⟨_, _, rfl, -⟩ := isCallOf_eq_true_iff.1 hv
    rfl
  · rfl
  · rfl

/-- Compiling the styles of the items of an element keeps its attributes, and compiles the styles
of its children. -/
theorem compileAll_items (head : Datum) {xs ys : List Datum}
    (h : List.Forall₂ (fun x y => compileAll x = .ok y) xs ys) :
    attributesIn (head :: ys) = attributesIn (head :: xs) ∧
      List.Forall₂ (fun x y => compileAll x = .ok y) (childrenIn (head :: xs))
        (childrenIn (head :: ys)) := by
  cases h with
  | nil => exact ⟨rfl, .nil⟩
  | @cons x y xs ys hxy hxs =>
      cases hx : x.isMap with
      | true =>
          obtain ⟨es, rfl⟩ := eq_map_of_isMap hx
          rw [compileAll_map] at hxy
          cases hxy
          exact ⟨rfl, hxs⟩
      | false =>
          have hy := isMap_compileAll hxy
          rw [hx] at hy
          rw [attributesIn_cons_of_not_isMap hx, attributesIn_cons_of_not_isMap hy,
            childrenIn_cons_of_not_isMap hx, childrenIn_cons_of_not_isMap hy]
          exact ⟨rfl, .cons hxy hxs⟩

/-- The styles of the items of an element can be compiled if those of its children can. -/
theorem exists_compileAll_items (head : Datum) {xs : List Datum}
    (h : ∀ x ∈ childrenIn (head :: xs), ∃ y, compileAll x = .ok y) :
    ∀ x ∈ xs, ∃ y, compileAll x = .ok y := by
  cases xs with
  | nil => simp
  | cons x xs =>
      cases hx : x.isMap with
      | true =>
          obtain ⟨es, rfl⟩ := eq_map_of_isMap hx
          rw [List.forall_mem_cons]
          exact ⟨⟨_, compileAll_map es⟩, h⟩
      | false => rwa [childrenIn_cons_of_not_isMap hx] at h

/-- Literals have no styles. -/
theorem forall₂_literals {literals xs ys : List Datum} (h : ∀ v ∈ literals, v.isLiteral = true)
    (hys : List.Forall₂ (fun x y => compileAll x = .ok y) (literals ++ xs) ys) :
    ∃ zs, ys = literals ++ zs ∧ List.Forall₂ (fun x y => compileAll x = .ok y) xs zs := by
  induction literals generalizing ys with
  | nil => exact ⟨ys, rfl, hys⟩
  | cons v literals ih =>
      obtain ⟨w, rest, hw, hrest, rfl⟩ := List.forall₂_cons_left_iff.1 hys
      obtain ⟨zs, rfl, hzs⟩ := ih (fun u hu => h u (by simp [hu])) hrest
      have hv := h v (by simp)
      cases v with
      | literal s =>
          cases hw
          exact ⟨zs, rfl, hzs⟩
      | _ => cases hv

end Stylesheet

/-! ## Declarations -/

namespace Namespace

private theorem name_seq {shape : Shape} (hshape : shape.isCall = true) {literals : List Datum}
    (hliterals : ∀ v ∈ literals, v.isLiteral = true) (n : String) (clauses : List Datum) :
    name (.seq shape (.symbol "ns" :: literals ++ .symbol n :: clauses)) = .ok n := by
  unfold name
  rw [split?_seq hshape hliterals]

/-- A declaration whose styles are compiled declares the same namespace. -/
theorem name_compileAll {declaration styled : Datum} {n : String}
    (hname : name declaration = .ok n) (h : Stylesheet.compileAll declaration = .ok styled) :
    name styled = .ok n := by
  obtain ⟨shape, literals, m, clauses, rfl, hshape, hliterals⟩ :=
    (Page.name_acceptsIff declaration).accepts.1 ⟨n, hname⟩
  rw [name_seq hshape hliterals] at hname
  cases hname
  obtain ⟨ys, rfl, hys⟩ := Stylesheet.compileAll_call (by decide) h
  obtain ⟨zs, rfl, hzs⟩ := Stylesheet.forall₂_literals hliterals hys
  obtain ⟨y, clauses', hy, -, rfl⟩ := List.forall₂_cons_left_iff.1 hzs
  cases hy
  exact name_seq hshape hliterals _ clauses'

private theorem writable_of_extendUse? {clauses extended : List Datum}
    (h : extendUse? clauses = some extended) (hextended : ∀ c ∈ extended, c.writable = true) :
    ∀ c ∈ clauses, c.writable = true := by
  induction clauses generalizing extended with
  | nil => simp
  | cons clause clauses ih =>
      rw [List.forall_mem_cons]
      unfold extendUse? at h
      split at h
      · next shape xs hrole =>
        cases h
        rw [List.forall_mem_cons, writable_seq_iff] at hextended
        refine ⟨writable_seq_iff.2 fun x hx => hextended.1 x (by simp [hx]), hextended.2⟩
      · obtain ⟨more, hmore, rfl⟩ := Option.map_eq_some_iff.1 h
        rw [List.forall_mem_cons] at hextended
        exact ⟨hextended.1, ih hmore hextended.2⟩

private theorem writable_of_insertUse {clauses : List Datum}
    (h : ∀ c ∈ insertUse clauses, c.writable = true) : ∀ c ∈ clauses, c.writable = true := by
  obtain ⟨others, rest, rfl, hinsert, -, -⟩ := insertUse_eq clauses
  rw [hinsert] at h
  intro c hc
  rcases List.mem_append.1 hc with hc | hc
  · exact h c (by simp [hc])
  · exact h c (by simp [hc])

/-- A declaration holds no long integer if it holds none with the runtime environment imported. -/
theorem writable_of_importRuntime {declaration imported : Datum}
    (h : importRuntime declaration = .ok imported) (himported : imported.writable = true) :
    declaration.writable = true := by
  obtain ⟨front, n, clauses, hsplit, rfl⟩ := importRuntime_eq_ok h
  obtain ⟨shape, literals, rfl, -, -, -⟩ := split?_eq_some hsplit
  rw [writable_seq_iff, List.forall_mem_append, List.forall_mem_cons] at himported ⊢
  obtain ⟨hfront, hname, hclauses⟩ := himported
  refine ⟨hfront, hname, ?_⟩
  cases hextend : extendUse? clauses with
  | none =>
      rw [hextend] at hclauses
      exact writable_of_insertUse hclauses
  | some extended =>
      rw [hextend] at hclauses
      exact writable_of_extendUse? hextend hclauses

end Namespace

namespace Module

private theorem writable_of_text {forms : List Datum} {width : Int} {code : String}
    (h : text forms width = .ok code) : ∀ v ∈ forms, v.writable = true := by
  unfold text at h
  obtain ⟨blocks, hblocks, -⟩ := bind_eq_ok h
  intro v hv
  obtain ⟨block, hblock⟩ := exists_ok_of_mapM hblocks v hv
  obtain ⟨laid, hlaid, -⟩ := bind_eq_ok hblock
  unfold layOut? ifWritable at hlaid
  split at hlaid
  · next hwritable => exact hwritable
  · cases hlaid

private theorem writable_of_entryPoint {content : List Datum}
    (h : (entryPoint content).writable = true) :
    ∀ v ∈ content, v.writable = true := by
  rw [← List.all_eq_true, ← allWritable_eq_all]
  simpa [entryPoint, call, writable, allWritable] using h

/-- The parts of a module that has a text hold no long integer. -/
theorem writable_of_assemble {declaration : Datum} {content forms : List Datum} {width : Int}
    {code : String} (hforms : assemble declaration content = .ok forms)
    (h : text forms width = .ok code) :
    declaration.writable = true ∧ ∀ v ∈ content, v.writable = true := by
  unfold assemble at hforms
  obtain ⟨imported, himported, hforms⟩ := bind_eq_ok hforms
  cases hforms
  have hwritable := writable_of_text h
  rw [List.forall_mem_cons, List.forall_mem_cons] at hwritable
  exact ⟨Namespace.writable_of_importRuntime himported hwritable.1,
    writable_of_entryPoint hwritable.2.1⟩

/-- A module has a text if its parts hold no long integer. -/
theorem text_assemble_succeeds {declaration : Datum} {content forms : List Datum}
    (hdeclaration : declaration.writable = true) (hcontent : ∀ v ∈ content, v.writable = true)
    (hforms : assemble declaration content = .ok forms) (width : Int) :
    ∃ code, text forms width = .ok code := by
  unfold assemble at hforms
  obtain ⟨imported, himported, hforms⟩ := bind_eq_ok hforms
  cases hforms
  have hwritable : ∀ v ∈ [imported, entryPoint content], v.writable = true := by
    rw [List.forall_mem_cons, List.forall_mem_singleton]
    exact ⟨Namespace.importRuntime_writable hdeclaration himported, entryPoint_writable hcontent⟩
  obtain ⟨code, hcode, -⟩ := text_succeeds hwritable width
  exact ⟨code, hcode⟩

end Module

/-! ## Pages -/

namespace Page

private theorem toPageForm_compileAll {v w : Datum} (h : Stylesheet.compileAll v = .ok w) :
    toPageForm v = toPageForm w := by
  rw [toPageForm, toPageForm, h, Stylesheet.compileAll_again h]

private theorem exists_compileAll_of_toPageForm {v w : Datum} (h : toPageForm v = .ok w) :
    ∃ styled, Stylesheet.compileAll v = .ok styled := by
  obtain ⟨styled, hstyled, -⟩ := bind_eq_ok h
  exact ⟨styled, hstyled⟩

/-- The second plan is one of the first page with its styles compiled. -/
structure Plan.Restyled (p q : Plan) : Prop where
  html : Stylesheet.compileAll p.html = .ok q.html
  attributes : q.attributes = p.attributes
  name : q.name = p.name
  content : List.Forall₂ (fun v w => Stylesheet.compileAll v = .ok w) p.content q.content
  code : ∃ declaration styled, Stylesheet.compileAll declaration = .ok styled ∧
    Module.assemble declaration p.content = .ok p.code ∧
    Module.assemble styled q.content = .ok q.code

private theorem plan_of_parts {document html body declaration : Datum}
    {items content code : List Datum} {name : String} (hhtml : findHtml document = .ok html)
    (hbody : bodyOf html = .ok body) (hitems : body.items = .ok items)
    (hchildren : childrenIn items = declaration :: content)
    (hrole : declaration.role = .namespace)
    (hcode : Module.assemble declaration content = .ok code)
    (hname : Namespace.name declaration = .ok name) :
    plan document =
      .ok ⟨document, html, (attributesIn items).getD [], name, code, content⟩ := by
  unfold plan
  rw [hhtml, ok_bind, hbody, ok_bind, hitems, ok_bind]
  simp only [hchildren, hrole, beq_self_eq_true, if_true, hcode, hname]
  rfl

/-- The parts of a page that is the whole document. -/
theorem parts_of_plan {html : Datum} {p : Plan} (hrole : html.role = .html)
    (h : plan html = .ok p) :
    ∃ shape kids bodyShape items declaration, html = .seq shape (.symbol "html" :: kids) ∧
      shape.isCall = true ∧ p.document = html ∧ p.html = html ∧
      kids.filter (fun v => v.role == .body) = [.seq bodyShape (.symbol "body" :: items)] ∧
      p.attributes = (attributesIn (.symbol "body" :: items)).getD [] ∧
      childrenIn (.symbol "body" :: items) = declaration :: p.content ∧
      Module.assemble declaration p.content = .ok p.code ∧
      Namespace.name declaration = .ok p.name := by
  obtain ⟨hdocument, hfound, body, items, declaration, hbody, hitems, hchildren, hcode, -, hname,
    hattributes⟩ := plan_eq_ok h
  rw [findHtml_of_role hrole] at hfound
  have hhtml : p.html = html := (Except.ok.inj hfound).symm
  rw [hhtml] at hbody
  obtain ⟨shape, kids, rfl, hshape⟩ := eq_seq_of_role hrole (by decide)
  obtain ⟨_, hkids, hfilter⟩ := bodyOf_eq_ok hbody
  cases hkids
  obtain ⟨bodyShape, items, rfl, -⟩ := eq_seq_of_role (role_of_bodyOf hbody) (by decide)
  cases hitems
  exact ⟨shape, kids, bodyShape, items, declaration, rfl, hshape, hdocument, hhtml, hfilter,
    hattributes, hchildren, hcode, hname⟩

private theorem role_body_compileAll {v w : Datum} (h : Stylesheet.compileAll v = .ok w) :
    (v.role == .body) = (w.role == .body) := by
  rw [← isCallOf_body, ← isCallOf_body, Stylesheet.isCallOf_compileAll h]

/-- Compiling styles commutes with finding the only body. -/
theorem filter_body_compileAll {kids kids' : List Datum} {body : Datum}
    (hkids : List.Forall₂ (fun v w => Stylesheet.compileAll v = .ok w) kids kids')
    (h : kids.filter (fun v => v.role == .body) = [body]) :
    ∃ body', kids'.filter (fun v => v.role == .body) = [body'] ∧
      Stylesheet.compileAll body = .ok body' := by
  have hrole : ∀ v w : Datum, Stylesheet.compileAll v = .ok w →
      ((v.role == .body) = true ↔ (w.role == .body) = true) := by
    intro v w hvw
    rw [role_body_compileAll hvw]
  have hfilter := List.rel_filter (fun v w hvw => hrole v w hvw) hkids
  rw [h] at hfilter
  obtain ⟨body', rest, hbody, hrest, heq⟩ := List.forall₂_cons_left_iff.1 hfilter
  cases hrest
  exact ⟨body', heq, hbody⟩

private theorem plan_compileAll {html styled : Datum} {p : Plan} (hrole : html.role = .html)
    (hp : plan html = .ok p) (h : Stylesheet.compileAll html = .ok styled) :
    ∃ q, plan styled = .ok q ∧ q.document = styled ∧ p.Restyled q := by
  obtain ⟨shape, kids, bodyShape, items, declaration, rfl, hshape, -, hhtml, hfilter, hattributes,
    hchildren, hcode, hname⟩ := parts_of_plan hrole hp
  obtain ⟨kids', rfl, hkids⟩ := Stylesheet.compileAll_call (by decide) h
  obtain ⟨body', hfilter', hbody'⟩ := filter_body_compileAll hkids hfilter
  -- the body keeps its head, so its attributes and children are found in their places
  obtain ⟨items', rfl, hitems⟩ := Stylesheet.compileAll_call (by decide) hbody'
  obtain ⟨hattributes', hchildren'⟩ := Stylesheet.compileAll_items (.symbol "body") hitems
  rw [hchildren] at hchildren'
  obtain ⟨declaration', content', hdeclaration, hcontent, hchildren'⟩ :=
    List.forall₂_cons_left_iff.1 hchildren'
  have hname' := Namespace.name_compileAll hname hdeclaration
  have hnames := (name_acceptsIff declaration').accepts.1 ⟨_, hname'⟩
  obtain ⟨code', hcode'⟩ := (assemble_acceptsIff declaration' content').accepts.2 hnames
  refine ⟨_, plan_of_parts (findHtml_of_role (role_html hshape kids'))
    (findUnique_of_filter hfilter' "<html>") rfl hchildren' hnames.role hcode' hname', rfl, ?_⟩
  refine ⟨by rwa [hhtml], ?_, rfl, hcontent, declaration, declaration', hdeclaration, hcode, hcode'⟩
  rw [hattributes, hattributes']

private theorem role_html_compileAll {html styled : Datum} (hrole : html.role = .html)
    (h : Stylesheet.compileAll html = .ok styled) : styled.role = .html := by
  obtain ⟨shape, kids, rfl, hshape⟩ := eq_seq_of_role hrole (by decide)
  obtain ⟨kids', rfl⟩ := compileAll_html hshape h
  exact role_html hshape kids'

/-- A page whose styles are compiled beforehand is compiled to the same forms. -/
theorem compiledHtml_restyled {p q : Plan} (h : p.Restyled q) (hrole : p.html.role = .html)
    (options : CompileOptions) : q.compiledHtml options = p.compiledHtml options := by
  obtain ⟨shape, kids, hhtml, -⟩ := eq_seq_of_role hrole (by decide)
  have hstyled := h.html
  rw [hhtml] at hstyled
  obtain ⟨kids', hhtml', hkids⟩ := Stylesheet.compileAll_call (by decide) hstyled
  have hcontent : p.content.mapM toPageForm = q.content.mapM toPageForm :=
    mapM_congr₂ h.content fun _ _ => toPageForm_compileAll
  have hkid : ∀ body v w, Stylesheet.compileAll v = .ok w →
      (if v.role == .body then pure body else toPageForm v) =
        if w.role == .body then pure body else toPageForm w := by
    intro body v w hvw
    rw [toPageForm_compileAll hvw, role_body_compileAll hvw]
  unfold Plan.compiledHtml
  rw [hhtml, hhtml', h.attributes, h.name, hcontent]
  simp only [Datum.items, ok_bind, mapM_congr₂ hkids (hkid _)]

/-- The styles of a page that is rendered can be compiled. -/
theorem exists_compileAll_of_render {html : Datum} {p : Plan} {options : CompileOptions}
    {bundle : Bundle} (hrole : html.role = .html) (hp : plan html = .ok p)
    (h : p.render options = .ok bundle) : ∃ styled, Stylesheet.compileAll html = .ok styled := by
  obtain ⟨shape, kids, bodyShape, items, declaration, rfl, -, hdocument, hhtml, hfilter, -,
    hchildren, hcode, -⟩ := parts_of_plan hrole hp
  obtain ⟨forms, -, hforms, -, -, htext⟩ := render_eq_ok h
  obtain ⟨page, hpage, -⟩ := compiledForms_of_role (hdocument ▸ hrole) hforms
  obtain ⟨before, after, _, _, _, rfl, -, hcontent, hbefore, hafter, -⟩ :=
    compiledHtml_eq_ok hhtml hfilter hpage
  have hpageForms : ∀ {vs ws : List Datum}, vs.mapM toPageForm = .ok ws →
      ∀ v ∈ vs, ∃ w, Stylesheet.compileAll v = .ok w := by
    intro vs ws hws v hv
    obtain ⟨w, hw⟩ := exists_ok_of_mapM hws v hv
    exact exists_compileAll_of_toPageForm hw
  have hdeclaration : ∃ w, Stylesheet.compileAll declaration = .ok w :=
    Stylesheet.exists_compileAll_of_writable (Module.writable_of_assemble hcode htext).1
  have hbody : ∃ w, Stylesheet.compileAll (.seq bodyShape (.symbol "body" :: items)) = .ok w := by
    apply Stylesheet.exists_compileAll_call (by decide)
    apply Stylesheet.exists_compileAll_items (.symbol "body")
    rw [hchildren, List.forall_mem_cons]
    exact ⟨hdeclaration, hpageForms hcontent⟩
  apply Stylesheet.exists_compileAll_call (by decide)
  rw [List.forall_mem_append, List.forall_mem_cons]
  exact ⟨hpageForms hbefore, hbody, hpageForms hafter⟩

private theorem Plan.Restyled.code_succeeds {p q : Plan} (h : p.Restyled q) {width : Int}
    {code : String} (hcode : Module.text p.code width = .ok code) :
    ∃ code', Module.text q.code width = .ok code' := by
  obtain ⟨declaration, styled, hstyled, hassemble, hassemble'⟩ := h.code
  obtain ⟨hdeclaration, hcontent⟩ := Module.writable_of_assemble hassemble hcode
  apply Module.text_assemble_succeeds _ _ hassemble'
  · exact Stylesheet.compileAll_writable hdeclaration hstyled
  · exact forall_mem_of_forall₂ h.content fun v hv w hvw =>
      Stylesheet.compileAll_writable (hcontent v hv) hvw

/-- A page that is compiled is compiled to the same markup if its styles are compiled
beforehand. -/
theorem compile_restyled {html : Datum} {options : CompileOptions} {bundle : Bundle}
    (hrole : html.role = .html) (h : compile html options = .ok bundle) :
    ∃ styled again, Stylesheet.compileAll html = .ok styled ∧
      compile styled options = .ok again ∧ again.markup = bundle.markup := by
  obtain ⟨p, hp, h⟩ := bind_eq_ok h
  obtain ⟨styled, hstyled⟩ := exists_compileAll_of_render hrole hp h
  obtain ⟨q, hq, hdocument, hrestyled⟩ := plan_compileAll hrole hp hstyled
  obtain ⟨forms, nodes, hforms, hnodes, hmarkup, hcode⟩ := render_eq_ok h
  obtain ⟨code, hcode'⟩ := hrestyled.code_succeeds hcode
  obtain ⟨-, -, -, -, -, -, -, hdocument', hhtml, -⟩ := parts_of_plan hrole hp
  have hforms' : q.compiledForms options = .ok forms := by
    obtain ⟨page, hpage, rfl⟩ := compiledForms_of_role (hdocument' ▸ hrole) hforms
    rw [← compiledHtml_restyled hrestyled (hhtml ▸ hrole)] at hpage
    unfold Plan.compiledForms
    rw [hpage, ok_bind, hdocument, role_html_compileAll hrole hstyled, if_pos (by rfl)]
    rfl
  refine ⟨styled, ⟨bundle.markup, code⟩, hstyled, ?_, rfl⟩
  unfold compile Plan.render
  rw [hq, ok_bind, hforms', ok_bind, hnodes, ok_bind, hmarkup, ok_bind, hcode']
  rfl

end Page

namespace Stylesheet

/-- Compiling styles twice is compiling them once, faults included, and a page that is compiled can
have its styles compiled beforehand without any change to its markup. -/
theorem compileAll_absorbs (v html : Datum) (options : CompileOptions) :
    (compileAll v >>= compileAll) = compileAll v ∧
    (html.role = .html → ∀ bundle, Page.compile html options = .ok bundle →
      ∃ styled again, compileAll html = .ok styled ∧ Page.compile styled options = .ok again ∧
        again.markup = bundle.markup) := by
  constructor
  · cases h : compileAll v with
    | error fault => rfl
    | ok w => exact compileAll_again h
  · intro hrole bundle h
    exact Page.compile_restyled hrole h

/-- A page with a style in its head, one in a clause of its declaration, and one in its body that
is left alone. -/
theorem compileAll_absorbs_nested :
    ∃ html styled options bundle again,
      html = .call "html" [
        .call "head" [.call "style" [.vector [.symbol "p"],
          .map [(.keyword "color", .symbol "red")]]],
        .seq .fn [.symbol "body", .map [], .call "ns" [.symbol "a", .form [.call "style"
          [.vector [.vector [.symbol "b"], .map []]]]], .call "style" [.str "p"]]] ∧
      styled = .call "html" [.call "head" [compiledForm "p \x7b\n  color: red;\n\x7d\n"],
        .seq .fn [.symbol "body", .map [], .call "ns" [.symbol "a",
          .form [compiledForm "b \x7b\n\x7d\n"]], .call "style" [.str "p"]]] ∧
      options = ⟨"main.js", none, 20, some "html"⟩ ∧
      compileAll html = .ok styled ∧ compileAll styled = .ok styled ∧
      Page.compile html options = .ok bundle ∧ Page.compile styled options = .ok again ∧
      again.markup = bundle.markup := by
  obtain ⟨html, hhtml⟩ : ∃ v, v = Datum.call "html" [
    .call "head" [.call "style" [.vector [.symbol "p"], .map [(.keyword "color", .symbol "red")]]],
    .seq .fn [.symbol "body", .map [], .call "ns" [.symbol "a", .form [.call "style"
      [.vector [.vector [.symbol "b"], .map []]]]], .call "style" [.str "p"]]] := ⟨_, rfl⟩
  obtain ⟨bundle, hbundle⟩ : ∃ bundle,
      Page.compile html ⟨"main.js", none, 20, some "html"⟩ = .ok bundle := by
    apply exists_of_isOk
    rw [hhtml]
    decide +kernel
  obtain ⟨htwice, hpage⟩ := compileAll_absorbs html html ⟨"main.js", none, 20, some "html"⟩
  obtain ⟨styled, again, hstyled, hagain, hmarkup⟩ := hpage (by rw [hhtml]; rfl) bundle hbundle
  rw [hstyled, ok_bind] at htwice
  have hforms := hstyled
  rw [hhtml] at hforms
  exact ⟨html, styled, _, bundle, again, hhtml, (Except.ok.inj hforms).symm, rfl, hstyled, htwice,
    hbundle, hagain, hmarkup⟩

end Stylesheet

end PageForms
