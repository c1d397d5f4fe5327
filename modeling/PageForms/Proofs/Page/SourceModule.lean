import PageForms.Page.Source
import PageForms.Proofs.Page.Boot

/-!
# The module of a namespace source

The module that is generated for a namespace source is read back as the declaration with the runtime
environment imported and an entry point that holds all forms of the source, in order, followed by
the children of the page's body.
-/

namespace PageForms.Page

open Datum

private theorem mem_of_children {shape : Shape} {xs kids : List Datum} {rest : Datum}
    (hrest : (seq shape xs).children = .ok rest) (hkids : rest.items = .ok kids) :
    ∀ v ∈ kids, v ∈ xs := by
  unfold children at hrest
  obtain ⟨attrs, -, hrest⟩ := bind_eq_ok hrest
  cases attrs with
  | none =>
      cases hrest
      cases hkids
      exact fun v hv => List.mem_of_mem_drop hv
  | some es =>
      cases hrest
      cases hkids
      exact fun v hv => List.mem_of_mem_drop hv

/-- The children of the body of a restorable page are restorable. -/
theorem children_restorable {styled body rest : Datum} {kids : List Datum}
    (hstyled : styled.Restorable) (hrole : styled.role = .html) (hbody : findBody styled = .ok body)
    (hrest : body.children = .ok rest) (hkids : rest.items = .ok kids) :
    ∀ v ∈ kids, v.Restorable := by
  obtain ⟨shape, xs, rfl, -⟩ := eq_seq_of_role hrole (by decide)
  rw [findBody, findHtml_of_role hrole, ok_bind] at hbody
  have hbodyRole := role_of_bodyOf hbody
  obtain ⟨items, hitems, hfilter⟩ := bodyOf_eq_ok hbody
  cases hitems
  have hmem : body ∈ xs := (role_of_filter hfilter).1
  have hbodyRestorable := hstyled.items.2 body (by simp [hmem])
  obtain ⟨shape', ys, rfl, -⟩ := eq_seq_of_role hbodyRole (by decide)
  intro v hv
  exact hbodyRestorable.items.2 v (mem_of_children hrest hkids v hv)

/-- Reading the module of a namespace source gives its declaration with the runtime environment
imported, and the entry point with the other forms and the children of the styled page's body; and
the page ends by calling the entry point in the module's namespace. -/
theorem read_code_of_compileSource {source : String} {declaration html : Datum}
    {logic : List Datum} {options : CompileOptions} {bundle : Bundle}
    (hread : Reader.read source = .ok (declaration :: (logic ++ [html])))
    (hdeclaration : declaration.role = .namespace) (hhtml : html.role = .html)
    (hfinite : ∀ v ∈ declaration :: (logic ++ [html]), v.isFinite = true)
    (hwritable : ∀ v ∈ declaration :: (logic ++ [html]), v.writable = true)
    (hcompile : compileSource .namespace source options = .ok bundle) :
    ∃ imported styled body rest kids name,
      Namespace.importRuntime declaration = .ok imported ∧
      Stylesheet.compileAll html = .ok styled ∧ findBody styled = .ok body ∧
      body.children = .ok rest ∧ rest.items = .ok kids ∧
      Reader.read bundle.code = .ok [imported,
        .call "defn" [.literal "^:export", .symbol "hlispinit", .vector [],
          .call "hlisp.env/init" [.vector (.call "do" (logic ++ [.nil]) :: kids)]]] ∧
      Namespace.name imported = .ok name ∧
      ∃ attrs before bodyAttrs front after,
        Node.page? options.doctype [.element "html" attrs
          (before ++ .element "body" bodyAttrs (front ++ [.element "script"
            [("type", some "text/javascript")] [.text (objectPath name ++ ".hlispinit();")]]) ::
              after)] = .ok bundle.markup ∧
        ∀ n ∈ before ++ after, n.isElement "body" = false := by
  have hrestorable := restorable_of_read hread hfinite hwritable
  unfold compileSource planSource documentOf at hcompile
  obtain ⟨p, hplan, hrender⟩ := bind_eq_ok hcompile
  obtain ⟨document, hdocument, hplan⟩ := bind_eq_ok hplan
  simp only [hread, ok_bind] at hdocument
  obtain ⟨styled, body, rest, kids, attributes, hstyled, hbody, hrest, hkids, -, rfl⟩ :=
    liftSource_eq_ok hdeclaration hdocument
  obtain ⟨shape, xs, rfl, hshape⟩ := eq_seq_of_role hhtml (by decide)
  have hstyledRestorable :=
    Stylesheet.compileAll_restorable (hrestorable _ (by simp)) hstyled
  obtain ⟨ys, rfl⟩ := compileAll_html hshape hstyled
  have hstyledRole : (Datum.seq shape (.symbol "html" :: ys)).role = .html :=
    role_seq_cons hshape _ ys
  have hkidsRestorable := children_restorable hstyledRestorable hstyledRole hbody hrest hkids
  obtain ⟨zs, hpage, hhtmlPage, hzs, hcontent, hcode, hname⟩ := plan_lifted hshape hbody hplan
  have hmarkup := markup_of_render hshape hpage hhtmlPage hzs hrender
  obtain ⟨-, -, -, -, -, htext⟩ := render_eq_ok hrender
  unfold Module.assemble at hcode
  obtain ⟨imported, himported, hcode⟩ := bind_eq_ok hcode
  have hforms : p.code = [imported, Module.entryPoint p.content] := (Except.ok.inj hcode).symm
  have hlogic : ∀ v ∈ logic ++ [.nil], v.Restorable := by
    intro v hv
    rcases List.mem_append.1 hv with hv | hv
    · exact hrestorable v (by simp [hv])
    · rw [List.mem_singleton.1 hv]
      exact restorable_of_isAtomOf (by decide +kernel : isAtomOf .nil "nil" = true) rfl
  have hcontentRestorable : ∀ v ∈ p.content, v.Restorable := by
    rw [hcontent]
    intro v hv
    rcases List.mem_cons.1 hv with rfl | hv
    · exact restorable_call (by decide +kernel) hlogic
    · exact hkidsRestorable v hv
  have hback : Reader.read bundle.code = .ok p.code := by
    apply Module.read_text _ htext
    rw [hforms]
    intro v hv
    simp only [List.mem_cons, List.not_mem_nil, or_false] at hv
    rcases hv with rfl | rfl
    · exact Namespace.importRuntime_restorable (hrestorable declaration (by simp)) himported
    · exact Module.entryPoint_restorable hcontentRestorable
  refine ⟨imported, _, body, rest, kids, p.name, himported, hstyled, hbody, hrest, hkids, ?_, ?_,
    hmarkup⟩
  · rw [hback, hforms, hcontent]
    rfl
  · rw [Namespace.name_importRuntime himported]
    exact hname

theorem read_code_of_compileSource_styled :
    ∃ source bundle imported,
      source = "(ns m-a (:use a)) -2.5 (html (style [p] \x7b:x 1\x7d) (body \x7b\x7d (p x) #(q)))" ∧
      compileSource .namespace source ⟨"main.js", none, 20, some "html"⟩ = .ok bundle ∧
      Reader.read bundle.code = .ok [imported,
        .call "defn" [.literal "^:export", .symbol "hlispinit", .vector [],
          .call "hlisp.env/init" [.vector [
            .call "do" [.float (.finite true 5629499534213120 (-51)), .nil],
            .call "p" [.symbol "x"], .seq .fn [.symbol "q"]]]]] := by
  obtain ⟨source, hsource⟩ : ∃ s, s =
    "(ns m-a (:use a)) -2.5 (html (style [p] \x7b:x 1\x7d) (body \x7b\x7d (p x) #(q)))" := ⟨_, rfl⟩
  have hread : Reader.read source =
      .ok (.call "ns" [.symbol "m-a", .form [.keyword "use", .symbol "a"]] ::
        ([.float (.finite true 5629499534213120 (-51))] ++ [.call "html" [
          .call "style" [.vector [.symbol "p"], .map [(.keyword "x", .int 1)]],
          .call "body" [.map [], .call "p" [.symbol "x"], .seq .fn [.symbol "q"]]]])) := by
    rw [hsource]
    decide +kernel
  have hok : (compileSource .namespace source ⟨"main.js", none, 20, some "html"⟩).isOk = true := by
    rw [hsource]
    decide +kernel
  cases hcompile : compileSource .namespace source ⟨"main.js", none, 20, some "html"⟩ with
  | error fault =>
      rw [hcompile] at hok
      cases hok
  | ok bundle =>
      obtain ⟨imported, styled, body, rest, kids, name, -, hstyled, hbody, hrest, hkids, hback,
          -⟩ :=
        read_code_of_compileSource hread rfl rfl (by decide +kernel) (by decide +kernel) hcompile
      have hchildren : (Stylesheet.compileAll (.call "html" [
            .call "style" [.vector [.symbol "p"], .map [(.keyword "x", .int 1)]],
            .call "body" [.map [], .call "p" [.symbol "x"], .seq .fn [.symbol "q"]]]) >>=
          findBody >>= children >>= items) =
            .ok [.call "p" [.symbol "x"], .seq .fn [.symbol "q"]] := by
        decide +kernel
      rw [hstyled, ok_bind, hbody, ok_bind, hrest, ok_bind, hkids] at hchildren
      cases hchildren
      exact ⟨source, bundle, imported, hsource, hcompile, hback⟩

end PageForms.Page
