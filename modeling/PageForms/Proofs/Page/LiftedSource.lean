import PageForms.Proofs.Datum.Outermost
import PageForms.Proofs.Page.Faults
import PageForms.Proofs.Page.Stylesheet

/-!
# The sources that can be lifted

A namespace source is refused for its outline alone, or for a style that is compiled and holds an
integer too long to be written. Every other source is lifted, and the lifted page is one that
compiles exactly if the source's declaration names its namespace.
-/

namespace PageForms

open Datum

namespace Datum

theorem isCallOf_body (v : Datum) : v.isCallOf "body" = (v.role == .body) :=
  isCallOf_name (r := .body) (by decide) v

private theorem isCallOf_html (v : Datum) : v.isCallOf "html" = (v.role == .html) :=
  isCallOf_name (r := .html) (by decide) v

private theorem isCallOf_ns (v : Datum) : v.isCallOf "ns" = (v.role == .namespace) :=
  isCallOf_name (r := .namespace) (by decide) v

private theorem isCallOf_style (v : Datum) : v.isCallOf "style" = (v.role == .style) :=
  isCallOf_name (r := .style) (by decide) v

end Datum

/-! ## Styles that cannot be written -/

namespace Stylesheet

/-- The style form is compiled, and one of its rules holds an integer too long to be written. -/
def HasLongRule (style : Datum) : Prop :=
  ∃ shape items first rest, style = .seq shape (.symbol "style" :: items) ∧
    bodyOf items = .vector first :: rest ∧
    ∃ rule ∈ rulesFrom (.vector first :: rest), ∃ v ∈ rule.1 ++ rule.2, v.writable = false

/-- One of the outermost style forms of the value cannot be compiled. -/
def HasLongStyle (root : Datum) : Prop :=
  ∃ pos style, Exposed (isCallOf "style") root pos style ∧ style.isCallOf "style" = true ∧
    HasLongRule style

private theorem compileForm_acceptsIff {style : Datum} (h : style.isCallOf "style" = true) :
    AcceptsIff (compileForm style) (¬HasLongRule style) := by
  obtain ⟨shape, items, rfl, -⟩ := isCallOf_eq_true_iff.1 h
  by_cases hvector : ∃ first rest, bodyOf items = .vector first :: rest
  · obtain ⟨first, rest, hbody⟩ := hvector
    have hdrop : (Datum.vector first :: rest).dropWhile isMap = .vector first :: rest := rfl
    rw [compileForm_of_vector shape hbody, text_eq, hdrop, ifAllWritable]
    split
    · next hall =>
      rw [List.all_eq_true] at hall
      refine .of_ok ?_
      rintro ⟨_, _, first', rest', hstyle, hbody', rule, hrule, v, hv, hlong⟩
      cases hstyle
      rw [hbody] at hbody'
      cases hbody'
      rw [hall v (List.mem_flatMap.2 ⟨rule, hrule, hv⟩)] at hlong
      cases hlong
    · next hall =>
      refine .of_refusal rfl fun hnot => hall (List.all_eq_true.2 ?_)
      intro v hv
      obtain ⟨rule, hrule, hv⟩ := List.mem_flatMap.1 hv
      by_contra hlong
      exact hnot ⟨shape, items, first, rest, rfl, hbody, rule, hrule, v, hv,
        Bool.eq_false_of_not_eq_true hlong⟩
  · rw [compileForm_of_other shape fun first rest hbody => hvector ⟨first, rest, hbody⟩]
    refine .of_ok ?_
    rintro ⟨_, _, first, rest, hstyle, hbody, -⟩
    cases hstyle
    exact hvector ⟨first, rest, hbody⟩

theorem compileAll_eq (root : Datum) :
    compileAll root = root.replaceWhere (isCallOf "style") compileForm := by
  rw [compileAll, funext isCallOf_style]

/-- The styles of a value are compiled unless one of the outermost ones cannot be. -/
theorem compileAll_acceptsIff (root : Datum) :
    AcceptsIff (compileAll root) (¬HasLongStyle root) := by
  refine ⟨?_, compileAll_onlyRefuses root⟩
  rw [compileAll_eq]
  constructor
  · rintro ⟨result, hresult⟩ ⟨pos, style, hexposed, hstyle, hlong⟩
    obtain ⟨w, -, hreplaced⟩ := exists_replaced hresult hexposed
    cases hreplaced with
    | matched _ h => exact (compileForm_acceptsIff hstyle).accepts.1 ⟨w, h⟩ hlong
    | sequence hp _ | leaf hp _ =>
        rw [hstyle] at hp
        cases hp
  · intro hnot
    apply exists_replaceWhere
    intro pos style hexposed hstyle
    exact (compileForm_acceptsIff hstyle).accepts.2 fun hlong =>
      hnot ⟨pos, style, hexposed, hstyle, hlong⟩

/-- Compiling the styles of a call of another symbol compiles those of its items. -/
theorem compileAll_call {name : String} (hname : name ≠ "style") {shape : Shape}
    {xs : List Datum} {w : Datum} (h : compileAll (.seq shape (.symbol name :: xs)) = .ok w) :
    ∃ ys, w = .seq shape (.symbol name :: ys) ∧
      List.Forall₂ (fun x y => compileAll x = .ok y) xs ys := by
  have hstyle : (seq shape (.symbol name :: xs)).isCallOf "style" = false := by
    simp [isCallOf, hname]
  simp only [compileAll_eq] at h ⊢
  rcases replaceWhere_eq_ok_iff.1 h with ⟨hmatch, -⟩ | ⟨_, _, ys, heq, -, rfl, hys⟩ | ⟨-, hleaf, -⟩
  · rw [hstyle] at hmatch
    cases hmatch
  · cases heq
    obtain ⟨y, ys, hy, htail, rfl⟩ := List.forall₂_cons_left_iff.1 hys
    cases hy
    exact ⟨ys, rfl, htail⟩
  · exact absurd rfl (hleaf _ _)

/-- Compiling styles neither makes nor takes away a `body` form. -/
theorem isCallOf_compileAll {v w : Datum} (h : compileAll v = .ok w) :
    v.isCallOf "body" = w.isCallOf "body" := by
  rw [Bool.eq_iff_iff]
  constructor
  · intro hv
    obtain ⟨shape, xs, rfl, hshape⟩ := isCallOf_eq_true_iff.1 hv
    obtain ⟨ys, rfl, -⟩ := compileAll_call (by decide) h
    exact isCallOf_eq_true_iff.2 ⟨shape, ys, rfl, hshape⟩
  · intro hw
    rw [isCallOf_body, beq_iff_eq] at hw ⊢
    exact role_of_compileAll h hw

theorem compileAll_writable {v w : Datum} (hv : v.writable = true) (h : compileAll v = .ok w) :
    w.writable = true := by
  obtain ⟨w', h', hw'⟩ := replaceWhere_succeeds
    (fun u hu => compileForm_succeeds (beq_iff_eq.1 hu)) v hv
  rw [compileAll, h'] at h
  cases h
  exact hw'

end Stylesheet

/-! ## Sources -/

namespace Page

def callCount (name : String) : Datum → Nat
  | .seq _ items => items.countP (isCallOf name)
  | _ => 0

/-- The sources that have no page. -/
inductive Unliftable : List Datum → Prop
  | empty : Unliftable []
  | neither {first : Datum} {rest : List Datum} (hns : first.isCallOf "ns" = false)
      (hhtml : first.isCallOf "html" = false) : Unliftable (first :: rest)
  | alone {declaration : Datum} (hns : declaration.isCallOf "ns" = true) : Unliftable [declaration]
  | last {declaration html : Datum} {logic : List Datum} (hns : declaration.isCallOf "ns" = true)
      (hhtml : html.isCallOf "html" = false) : Unliftable (declaration :: (logic ++ [html]))
  | bodies {declaration html : Datum} {logic : List Datum} (hns : declaration.isCallOf "ns" = true)
      (hbodies : callCount "body" html ≠ 1) : Unliftable (declaration :: (logic ++ [html]))
  | longStyle {declaration html : Datum} {logic : List Datum}
      (hns : declaration.isCallOf "ns" = true) (hlong : Stylesheet.HasLongStyle html) :
      Unliftable (declaration :: (logic ++ [html]))

def splitAttributes : List Datum → Entries × List Datum
  | .map attributes :: kids => (attributes, kids)
  | kids => ([], kids)

/-- The document is the page with only its body changed: the declaration and the other forms of the
source stand in front of what was there. -/
def Lifted (declaration : Datum) (logic : List Datum) (page document : Datum) : Prop :=
  ∃ shape before bodyShape items after,
    page = .seq shape
      (.symbol "html" :: (before ++ .seq bodyShape (.symbol "body" :: items) :: after)) ∧
    shape.isCall = true ∧ bodyShape.isCall = true ∧
    (∀ v ∈ before ++ after, v.isCallOf "body" = false) ∧
    document = .seq shape (.symbol "html" :: (before ++
      liftedBody (splitAttributes items).1 declaration logic (splitAttributes items).2 :: after))

/-! ## The page of a source -/

private theorem exists_onlyCall_iff {name : String} {values : List Datum} :
    (∃ items, OnlyCall name values items) ↔ values.countP (isCallOf name) = 1 := by
  rw [List.countP_eq_length_filter, List.length_eq_one_iff]
  constructor
  · rintro ⟨items, honly⟩
    obtain ⟨shape, -, hfilter⟩ := onlyCall_iff_filter.1 honly
    exact ⟨_, hfilter⟩
  · rintro ⟨v, hfilter⟩
    have hv : v ∈ values.filter (isCallOf name) := by rw [hfilter]; simp
    obtain ⟨shape, items, rfl, hshape⟩ := isCallOf_eq_true_iff.1 (List.mem_filter.1 hv).2
    exact ⟨items, onlyCall_iff_filter.2 ⟨shape, hshape, hfilter⟩⟩

private theorem callCount_html (shape : Shape) (kids : List Datum) :
    callCount "body" (.seq shape (.symbol "html" :: kids)) = kids.countP (isCallOf "body") :=
  List.countP_cons_of_neg (by decide)

/-- Compiling styles keeps the number of bodies. -/
theorem callCount_compileAll {shape : Shape} {kids : List Datum} {styled : Datum}
    (h : Stylesheet.compileAll (.seq shape (.symbol "html" :: kids)) = .ok styled) :
    callCount "body" styled = callCount "body" (.seq shape (.symbol "html" :: kids)) := by
  obtain ⟨kids', rfl, hkids⟩ := Stylesheet.compileAll_call (by decide) h
  rw [callCount_html, callCount_html]
  exact (countP_forall₂ (fun x y h => Stylesheet.isCallOf_compileAll h) hkids).symm

theorem role_html {shape : Shape} (hshape : shape.isCall = true) (kids : List Datum) :
    (seq shape (.symbol "html" :: kids)).role = .html :=
  role_seq_cons hshape _ kids

private theorem findBody_html {shape : Shape} (hshape : shape.isCall = true) (kids : List Datum) :
    findBody (.seq shape (.symbol "html" :: kids)) = findUnique kids .body "<html>" := by
  rw [findBody, findHtml_of_role (role_html hshape kids)]
  rfl

private theorem findBody_acceptsIff {shape : Shape} (hshape : shape.isCall = true)
    (kids : List Datum) :
    AcceptsIff (findBody (.seq shape (.symbol "html" :: kids)))
      (callCount "body" (.seq shape (.symbol "html" :: kids)) = 1) := by
  rw [findBody_html hshape, callCount_html, ← exists_onlyCall_iff]
  exact findUnique_acceptsIff (r := .body) (by decide)

private theorem prependChildren_seq_cons (shape : Shape) (head : Datum) (items new : List Datum) :
    (seq shape (head :: items)).prependChildren new =
      .ok (.form (head :: .map (splitAttributes items).1 :: new ++ (splitAttributes items).2)) := by
  unfold prependChildren children
  rw [attributes?, ok_bind, get_zero, ok_bind, ok_bind]
  cases items with
  | nil => rfl
  | cons x xs => cases x <;> rfl

private theorem splitAttributes_writable {items : List Datum} (h : ∀ v ∈ items, v.writable = true) :
    (map (splitAttributes items).1).writable = true ∧
      ∀ v ∈ (splitAttributes items).2, v.writable = true := by
  unfold splitAttributes
  split
  · next attributes kids => exact ⟨h (.map attributes) (by simp), fun v hv => h v (by simp [hv])⟩
  · exact ⟨rfl, h⟩

/-! ## Accepting sources -/

private theorem liftSource_of_html {first : Datum} (h : first.isCallOf "html" = true)
    (rest : List Datum) : liftSource (.list (first :: rest)) = .ok first := by
  rw [isCallOf_html, beq_iff_eq] at h
  unfold liftSource
  rw [if_pos (by rfl), get_zero, ok_bind]
  simp only [h]
  rfl

private theorem liftSource_of_neither {first : Datum} (hns : first.isCallOf "ns" = false)
    (hhtml : first.isCallOf "html" = false) (rest : List Datum) :
    liftSource (.list (first :: rest)) = .error .notMarkupOrNamespace := by
  rw [isCallOf_ns, beq_eq_false_iff_ne] at hns
  rw [isCallOf_html, beq_eq_false_iff_ne] at hhtml
  unfold liftSource
  rw [if_pos (by rfl), get_zero, ok_bind]
  simp only
  rfl

private theorem liftSource_alone {declaration : Datum} (hns : declaration.isCallOf "ns" = true) :
    liftSource (.list [declaration]) = .error .lastNotMarkup := by
  rw [isCallOf_ns, beq_iff_eq] at hns
  unfold liftSource
  rw [if_pos (by rfl), get_zero, ok_bind]
  simp only [hns]
  rfl

variable {declaration html document : Datum} {logic : List Datum}

/-- The last form of a source is a page that the other forms can be lifted into. -/
structure TakesForms (html : Datum) : Prop where
  isHtml : html.isCallOf "html" = true
  oneBody : callCount "body" html = 1
  styles : ¬Stylesheet.HasLongStyle html

private theorem liftSource_source_acceptsIff (hns : declaration.isCallOf "ns" = true) :
    AcceptsIff (liftSource (.list (declaration :: (logic ++ [html])))) (TakesForms html) := by
  rw [isCallOf_ns, beq_iff_eq] at hns
  rw [liftSource_of_namespace hns]
  split
  · next hrole =>
    refine .of_refusal rfl fun h => ?_
    have hhtml := h.isHtml
    rw [isCallOf_html, beq_iff_eq] at hhtml
    simp [hhtml] at hrole
  · next hrole =>
    have hhtml : html.isCallOf "html" = true := by
      rw [isCallOf_html]
      simpa using hrole
    obtain ⟨shape, kids, rfl, hshape⟩ := isCallOf_eq_true_iff.1 hhtml
    have hstyles := Stylesheet.compileAll_acceptsIff (.seq shape (.symbol "html" :: kids))
    refine hstyles.bind TakesForms.styles fun styled hstyled => ?_
    have hcount := callCount_compileAll hstyled
    obtain ⟨kids', rfl, -⟩ := Stylesheet.compileAll_call (by decide) hstyled
    have hbodies := findBody_acceptsIff hshape kids'
    rw [hcount] at hbodies
    refine hbodies.bind TakesForms.oneBody fun body hbody => ?_
    have hone := hbodies.accepts.1 ⟨body, hbody⟩
    rw [findBody_html hshape] at hbody
    obtain ⟨bodyShape, items, rfl, -, -⟩ := onlyCall_of_findUnique (by decide) hbody
    rw [prependChildren_seq_cons, ok_bind]
    exact .of_ok ⟨hhtml, hone, hstyles.accepts.1 ⟨_, hstyled⟩⟩

private theorem unliftable_source_iff (hns : declaration.isCallOf "ns" = true) :
    Unliftable (declaration :: (logic ++ [html])) ↔ ¬TakesForms html := by
  constructor
  · intro h htakes
    generalize hforms : declaration :: (logic ++ [html]) = forms at h
    have hlast : ∀ {first last : Datum} {rest : List Datum},
        declaration :: (logic ++ [html]) = first :: (rest ++ [last]) → last = html := by
      intro first last rest heq
      exact (List.singleton_inj.1 (List.append_inj' (List.cons.inj heq).2 rfl).2).symm
    cases h with
    | empty => cases hforms
    | neither hother _ =>
        cases hforms
        rw [hns] at hother
        cases hother
    | alone _ => simp at hforms
    | last _ hhtml =>
        rw [hlast hforms, htakes.isHtml] at hhtml
        cases hhtml
    | bodies _ hbodies =>
        rw [hlast hforms] at hbodies
        exact hbodies htakes.oneBody
    | longStyle _ hlong =>
        rw [hlast hforms] at hlong
        exact htakes.styles hlong
  · intro hnot
    by_contra h
    apply hnot
    refine ⟨?_, ?_, ?_⟩
    · by_contra hhtml
      exact h (.last hns (Bool.eq_false_of_not_eq_true hhtml))
    · by_contra hbodies
      exact h (.bodies hns hbodies)
    · intro hlong
      exact h (.longStyle hns hlong)

/-- A source is lifted unless it is one of those that have no page. -/
theorem liftSource_acceptsIff (forms : List Datum) :
    AcceptsIff (liftSource (.list forms)) (¬Unliftable forms) := by
  cases forms with
  | nil => exact .of_refusal rfl fun h => h .empty
  | cons first rest =>
      cases hns : first.isCallOf "ns" with
      | true =>
          rcases List.eq_nil_or_concat rest with rfl | ⟨logic, html, hrest⟩
          · rw [liftSource_alone hns]
            exact .of_refusal rfl fun h => h (.alone hns)
          · rw [hrest, List.concat_eq_append, unliftable_source_iff hns, not_not]
            exact liftSource_source_acceptsIff hns
      | false =>
          cases hhtml : first.isCallOf "html" with
          | true =>
              rw [liftSource_of_html hhtml]
              refine .of_ok fun h => ?_
              cases h with
              | neither _ hother =>
                  rw [hhtml] at hother
                  cases hother
              | alone h | last h _ | bodies h _ | longStyle h _ =>
                  rw [hns] at h
                  cases h
          | false =>
              rw [liftSource_of_neither hns hhtml]
              exact .of_refusal rfl fun h => h (.neither hns hhtml)

/-! ## Compiling lifted pages -/

private theorem lifted_of_liftSource (hns : declaration.isCallOf "ns" = true)
    (h : liftSource (.list (declaration :: (logic ++ [html]))) = .ok document) :
    ∃ styled, Stylesheet.compileAll html = .ok styled ∧
      Lifted declaration logic styled document := by
  have htakes := (liftSource_source_acceptsIff hns).accepts.1 ⟨document, h⟩
  obtain ⟨shape, kids, rfl, hshape⟩ := isCallOf_eq_true_iff.1 htakes.isHtml
  rw [isCallOf_ns, beq_iff_eq] at hns
  rw [liftSource_of_namespace hns, role_html hshape, if_neg (by decide)] at h
  obtain ⟨styled, hstyled, h⟩ := bind_eq_ok h
  obtain ⟨body, hbody, h⟩ := bind_eq_ok h
  obtain ⟨newBody, hnew, h⟩ := bind_eq_ok h
  cases h
  obtain ⟨kids', rfl, -⟩ := Stylesheet.compileAll_call (by decide) hstyled
  rw [findBody_html hshape] at hbody
  obtain ⟨_, items, rfl, -, before, bodyShape, after, rfl, hbodyShape, hothers⟩ :=
    onlyCall_of_findUnique (by decide) hbody
  rw [prependChildren_seq_cons] at hnew
  cases hnew
  have hunique : ∀ v ∈ .symbol "html" :: before ++ after, v.role ≠ .body := by
    intro v hv
    rcases List.mem_cons.1 hv with rfl | hv
    · decide
    · have hother : v.isCallOf "body" = false := hothers v hv
      simpa [isCallOf_body] using hother
  have hbodyRole : (seq bodyShape (.symbol "body" :: items)).role = .body :=
    role_seq_cons hbodyShape _ items
  exact ⟨_, hstyled, shape, before, bodyShape, items, after, rfl, hshape, hbodyShape, hothers,
    replaceRole_of_unique hbodyRole hunique⟩

namespace Lifted

variable {page : Datum}

theorem plan_acceptsIff (hns : declaration.isCallOf "ns" = true)
    (h : Lifted declaration logic page document) :
    AcceptsIff (plan document) (NamesNamespace declaration) := by
  obtain ⟨shape, before, _, items, after, -, hshape, -, hothers, rfl⟩ := h
  rw [isCallOf_ns, beq_iff_eq] at hns
  have hbody : findUnique (before ++ liftedBody (splitAttributes items).1 declaration logic
      (splitAttributes items).2 :: after) .body "<html>" =
        .ok (liftedBody (splitAttributes items).1 declaration logic (splitAttributes items).2) := by
    apply findUnique_of_filter
    rw [List.filter_append, List.filter_cons_of_pos rfl, List.filter_eq_nil_iff.2,
      List.filter_eq_nil_iff.2, List.nil_append]
    · intro v hv
      rw [← isCallOf_body, hothers v (by simp [hv])]
      exact Bool.false_ne_true
    · intro v hv
      rw [← isCallOf_body, hothers v (by simp [hv])]
      exact Bool.false_ne_true
  unfold plan
  rw [findHtml_of_role (role_html hshape _), ok_bind, bodyOf, Datum.items, ok_bind, List.tail_cons,
    hbody, ok_bind, liftedBody, Datum.items, ok_bind]
  simp only [childrenIn, hns]
  refine (assemble_acceptsIff declaration _).bind id fun code hcode => ?_
  refine (name_acceptsIff declaration).bind id fun name hname => ?_
  exact .of_ok ((name_acceptsIff declaration).accepts.1 ⟨name, hname⟩)

/-- A lifted page compiles exactly if the declaration names the namespace. -/
theorem compile_iff (hns : declaration.isCallOf "ns" = true)
    (h : Lifted declaration logic page document) (hdocument : document.writable = true)
    (options : CompileOptions) :
    (∃ bundle, compile document options = .ok bundle) ↔ NamesNamespace declaration := by
  have hplan := h.plan_acceptsIff hns
  have hcompile : AcceptsIff (compile document options) (NamesNamespace declaration) := by
    refine hplan.bind id fun p hp => ?_
    obtain ⟨bundle, hbundle, -⟩ := render_succeeds hdocument hp options
    rw [hbundle]
    exact .of_ok (hplan.accepts.1 ⟨p, hp⟩)
  exact hcompile.accepts

theorem writable (h : Lifted declaration logic page document) (hpage : page.writable = true)
    (hdeclaration : declaration.writable = true) (hlogic : ∀ v ∈ logic, v.writable = true) :
    document.writable = true := by
  obtain ⟨shape, before, bodyShape, items, after, rfl, -, -, -, rfl⟩ := h
  have hitems := writable_seq_iff.1 hpage
  have hbody := writable_seq_iff.1 (hitems (.seq bodyShape (.symbol "body" :: items)) (by simp))
  obtain ⟨hattributes, hkids⟩ := splitAttributes_writable (List.forall_mem_cons.1 hbody).2
  have hblock : (call "do" (logic ++ [.nil])).writable = true := by
    apply writable_seq_iff.2
    intro v hv
    simp only [List.mem_cons, List.mem_append, List.not_mem_nil, or_false] at hv
    rcases hv with rfl | hv | rfl
    · rfl
    · exact hlogic v hv
    · rfl
  have hnew : (liftedBody (splitAttributes items).1 declaration logic
      (splitAttributes items).2).writable = true := by
    apply writable_form_cons_map_iff.2
    refine ⟨rfl, hattributes, ?_⟩
    intro v hv
    simp only [List.mem_cons] at hv
    rcases hv with rfl | rfl | hv
    · exact hdeclaration
    · exact hblock
    · exact hkids v hv
  apply writable_seq_iff.2
  intro v hv
  simp only [List.mem_cons, List.mem_append] at hv
  rcases hv with rfl | hv | rfl | hv
  · rfl
  · exact hitems v (by simp [hv])
  · exact hnew
  · exact hitems v (by simp [hv])

end Lifted

/-- A source is refused exactly if it is unliftable. One that starts with its page is this page; one
that starts with a declaration is its styled page with all other forms put into the body, and this
compiles exactly if the declaration names its namespace. -/
theorem liftSource_prepares_page (forms : List Datum) :
    ((∃ fault, liftSource (.list forms) = .error fault ∧ fault.isRefusal = true) ↔
      Unliftable forms) ∧
    ((∃ document, liftSource (.list forms) = .ok document) ↔ ¬Unliftable forms) ∧
    (∀ first rest, forms = first :: rest → first.isCallOf "html" = true →
      liftSource (.list forms) = .ok first) ∧
    ∀ declaration rest document, forms = declaration :: rest →
      declaration.isCallOf "ns" = true → liftSource (.list forms) = .ok document →
      ∃ logic html styled, rest = logic ++ [html] ∧ Stylesheet.compileAll html = .ok styled ∧
        Lifted declaration logic styled document ∧
        ((∀ v ∈ forms, v.writable = true) → document.writable = true) ∧
        (document.writable = true → ∀ options,
          (∃ bundle, compile document options = .ok bundle) ↔ NamesNamespace declaration) := by
  have haccepts := liftSource_acceptsIff forms
  refine ⟨⟨?_, ?_⟩, haccepts.accepts, ?_, ?_⟩
  · rintro ⟨fault, hfault, -⟩
    by_contra hnot
    obtain ⟨document, hdocument⟩ := haccepts.accepts.2 hnot
    rw [hfault] at hdocument
    cases hdocument
  · intro hunliftable
    cases h : liftSource (.list forms) with
    | error fault => exact ⟨fault, rfl, haccepts.refuses fault h⟩
    | ok document => exact absurd hunliftable (haccepts.accepts.1 ⟨document, h⟩)
  · rintro first rest rfl hhtml
    exact liftSource_of_html hhtml rest
  · rintro declaration rest document rfl hns hdocument
    rcases List.eq_nil_or_concat rest with rfl | ⟨logic, html, rfl⟩
    · rw [liftSource_alone hns] at hdocument
      cases hdocument
    · rw [List.concat_eq_append] at hdocument ⊢
      obtain ⟨styled, hstyled, hlifted⟩ := lifted_of_liftSource hns hdocument
      refine ⟨logic, html, styled, rfl, hstyled, hlifted, ?_, hlifted.compile_iff hns⟩
      intro hforms
      have hpage := Stylesheet.compileAll_writable (hforms html (by simp)) hstyled
      exact hlifted.writable hpage (hforms declaration (by simp)) fun v hv =>
        hforms v (by simp [hv])

/-- A source with two forms between its declaration and its page is lifted and compiles. -/
theorem liftSource_prepares_page_logic :
    ∃ declaration page document options,
      declaration = .call "ns" [.symbol "a"] ∧
      page = .call "html" [.call "body" [.map [], .str "t"]] ∧
      document = .call "html" [.call "body" [.map [], declaration,
        .call "do" [.int 1, .int 2, .nil], .str "t"]] ∧
      liftSource (.list [declaration, .int 1, .int 2, page]) = .ok document ∧
      ¬Unliftable [declaration, .int 1, .int 2, page] ∧
      ∃ bundle, compile document options = .ok bundle := by
  have hlift : liftSource (.list [.call "ns" [.symbol "a"], .int 1, .int 2,
      .call "html" [.call "body" [.map [], .str "t"]]]) =
        .ok (.call "html" [.call "body" [.map [], .call "ns" [.symbol "a"],
          .call "do" [.int 1, .int 2, .nil], .str "t"]]) := by
    rfl
  obtain ⟨-, haccepts, -, hsource⟩ := liftSource_prepares_page [.call "ns" [.symbol "a"], .int 1,
    .int 2, .call "html" [.call "body" [.map [], .str "t"]]]
  obtain ⟨_, _, _, -, -, -, -, hcompile⟩ := hsource _ _ _ rfl rfl hlift
  have hnames : NamesNamespace (.call "ns" [.symbol "a"]) :=
    ⟨.form, [], "a", [], rfl, rfl, by simp⟩
  exact ⟨_, _, _, ⟨"m.js", none, 80, none⟩, rfl, rfl, rfl, hlift, haccepts.1 ⟨_, hlift⟩,
    (hcompile (by decide +kernel) _).2 hnames⟩

/-- The last form is an `html` form with one body, and the source is still refused: a property of
its style is too long to be written. -/
theorem long_style_is_refused :
    ∃ declaration html,
      declaration = .call "ns" [.symbol "a"] ∧
      html = .call "html" [.call "style" [.vector [.keyword "a"],
        .map [(.keyword "b", .int (Int.ofNat (Nat.pow 16 3572)))]], .call "body" []] ∧
      html.isCallOf "html" = true ∧ callCount "body" html = 1 ∧
      liftSource (.list [declaration, html]) = .error .unwritableInteger ∧
      Fault.isRefusal .unwritableInteger = true :=
  ⟨_, _, rfl, rfl, rfl, rfl, by decide +kernel, rfl⟩

end Page

end PageForms
