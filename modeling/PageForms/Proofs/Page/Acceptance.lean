import PageForms.Proofs.Page.Rendering

/-!
# The documents that are pages

A list of forms compiles exactly if it is a page: one of the forms is an `html` form, one child of
that form is a `body` form, and the body begins with a declaration that names its namespace. Every
other list is refused, with no other kind of failure. Planning decides this alone: what has a plan
is rendered whatever its values are, as long as its integers can be written.
-/

namespace PageForms

open Datum

/-! ## Accepting and refusing -/

/-- The computation has a result exactly if the condition holds, and refuses what it was given
otherwise. -/
structure AcceptsIff {α : Type} (x : Except Fault α) (c : Prop) : Prop where
  accepts : (∃ a, x = .ok a) ↔ c
  refuses : ∀ fault, x = .error fault → fault.isRefusal = true

namespace AcceptsIff

variable {α β : Type} {x : Except Fault α} {f : α → Except Fault β} {c d : Prop}

theorem of_ok {a : α} (hc : c) : AcceptsIff (.ok a : Except Fault α) c := by
  refine ⟨⟨fun _ => hc, fun _ => ⟨a, rfl⟩⟩, ?_⟩
  intro fault h
  cases h

theorem of_refusal {fault : Fault} (hfault : fault.isRefusal = true) (hc : ¬c) :
    AcceptsIff (.error fault : Except Fault α) c := by
  refine ⟨⟨?_, fun h => absurd h hc⟩, ?_⟩
  · rintro ⟨a, h⟩
    cases h
  · intro fault' h
    cases h
    exact hfault

/-- The condition of a computation implies that of its first step, and decides the second step on
every result of the first. -/
theorem bind (hx : AcceptsIff x c) (hdc : d → c) (hf : ∀ a, x = .ok a → AcceptsIff (f a) d) :
    AcceptsIff (x >>= f) d := by
  cases x with
  | error fault =>
      refine of_refusal (hx.refuses fault rfl) fun hd => ?_
      obtain ⟨a, h⟩ := hx.accepts.2 (hdc hd)
      cases h
  | ok a => exact hf a rfl

end AcceptsIff

/-! ## Pages -/

/-- A form or an anonymous function with this symbol at its head. -/
def Datum.isCallOf (name : String) : Datum → Bool
  | .seq shape (.symbol head :: _) => shape.isCall && head == name
  | _ => false

namespace Page

/-- Exactly one of the values is a call of the symbol, and these are its items behind the head. -/
def OnlyCall (name : String) (values items : List Datum) : Prop :=
  ∃ before shape after, values = before ++ .seq shape (.symbol name :: items) :: after ∧
    shape.isCall = true ∧ ∀ v ∈ before ++ after, v.isCallOf name = false

/-- A declaration with a name: the first item behind its head that is no literal is a symbol. -/
def NamesNamespace (declaration : Datum) : Prop :=
  ∃ shape literals name clauses,
    declaration = .seq shape (.symbol "ns" :: literals ++ .symbol name :: clauses) ∧
    shape.isCall = true ∧ ∀ v ∈ literals, v.isLiteral = true

/-- The first of the items of a body, behind its attributes if it has any, names a namespace. -/
def BeginsWithNamespace (items : List Datum) : Prop :=
  ∃ declaration content, NamesNamespace declaration ∧
    (items = declaration :: content ∨ ∃ es, items = .map es :: declaration :: content)

/-- One of the forms is an `html` form, one of its items is a `body` form, and that one begins with
a declaration of its namespace. -/
def IsPage (forms : List Datum) : Prop :=
  ∃ kids items, OnlyCall "html" forms kids ∧ OnlyCall "body" kids items ∧
    BeginsWithNamespace items

end Page

/-! ## The only call -/

theorem Datum.isCallOf_eq_true_iff {name : String} {v : Datum} :
    v.isCallOf name = true ↔ ∃ shape xs, v = .seq shape (.symbol name :: xs) ∧
      shape.isCall = true := by
  constructor
  · intro h
    unfold isCallOf at h
    split at h
    · next shape head xs =>
      obtain ⟨hshape, hhead⟩ := Bool.and_eq_true_iff.1 h
      obtain rfl := beq_iff_eq.1 hhead
      exact ⟨shape, xs, rfl, hshape⟩
    · cases h
  · rintro ⟨shape, xs, rfl, hshape⟩
    simp [isCallOf, hshape]

theorem Datum.isCallOf_name {r : Role} (hr : r ∈ [Role.namespace, .html, .body, .style])
    (v : Datum) : v.isCallOf r.name = (v.role == r) := by
  rw [Bool.eq_iff_iff, isCallOf_eq_true_iff, beq_iff_eq]
  constructor
  · rintro ⟨shape, xs, rfl, hshape⟩
    rw [role_seq_cons hshape]
    simp only [List.mem_cons, List.not_mem_nil, or_false] at hr
    rcases hr with rfl | rfl | rfl | rfl <;> rfl
  · intro hrole
    exact eq_seq_of_role hrole hr

namespace Page

theorem onlyCall_iff_filter {name : String} {values items : List Datum} :
    OnlyCall name values items ↔ ∃ shape, shape.isCall = true ∧
      values.filter (isCallOf name) = [.seq shape (.symbol name :: items)] := by
  constructor
  · rintro ⟨before, shape, after, rfl, hshape, hothers⟩
    have hnone : ∀ vs : List Datum, (∀ v ∈ vs, v ∈ before ++ after) →
        vs.filter (isCallOf name) = [] := by
      intro vs hvs
      rw [List.filter_eq_nil_iff]
      intro v hv
      simp [hothers v (hvs v hv)]
    have hcall : (seq shape (.symbol name :: items)).isCallOf name = true :=
      isCallOf_eq_true_iff.2 ⟨shape, items, rfl, hshape⟩
    refine ⟨shape, hshape, ?_⟩
    rw [List.filter_append, List.filter_cons_of_pos hcall, hnone before (by simp +contextual),
      hnone after (by simp +contextual), List.nil_append]
  · rintro ⟨shape, hshape, hfilter⟩
    obtain ⟨before, after, rfl, -, hothers⟩ := exists_split_of_filter hfilter
    exact ⟨before, shape, after, rfl, hshape, hothers⟩

theorem OnlyCall.unique {name : String} {values items items' : List Datum}
    (h : OnlyCall name values items) (h' : OnlyCall name values items') : items = items' := by
  obtain ⟨_, -, hfilter⟩ := onlyCall_iff_filter.1 h
  obtain ⟨_, -, hfilter'⟩ := onlyCall_iff_filter.1 h'
  rw [hfilter] at hfilter'
  cases hfilter'
  rfl

variable {r : Role} {values : List Datum} {place : String}

theorem onlyCall_of_findUnique {v : Datum} (hr : r ∈ [Role.namespace, .html, .body, .style])
    (h : findUnique values r place = .ok v) :
    ∃ shape items, v = .seq shape (.symbol r.name :: items) ∧ shape.isCall = true ∧
      OnlyCall r.name values items := by
  have hfilter := findUnique_eq_ok h
  obtain ⟨shape, items, rfl, hshape⟩ := eq_seq_of_role (role_of_filter hfilter).2 hr
  refine ⟨shape, items, rfl, hshape, onlyCall_iff_filter.2 ⟨shape, hshape, ?_⟩⟩
  rw [funext (isCallOf_name hr), hfilter]

theorem findUnique_acceptsIff (hr : r ∈ [Role.namespace, .html, .body, .style]) :
    AcceptsIff (findUnique values r place) (∃ items, OnlyCall r.name values items) := by
  constructor
  · constructor
    · rintro ⟨v, h⟩
      obtain ⟨shape, items, -, -, honly⟩ := onlyCall_of_findUnique hr h
      exact ⟨items, honly⟩
    · rintro ⟨items, honly⟩
      obtain ⟨shape, -, hfilter⟩ := onlyCall_iff_filter.1 honly
      rw [funext (isCallOf_name hr)] at hfilter
      exact ⟨_, findUnique_of_filter hfilter place⟩
  · intro fault h
    unfold findUnique at h
    split at h <;> cases h <;> rfl

/-! ## The declaration -/

private theorem namesNamespace_iff_split? {declaration : Datum} :
    NamesNamespace declaration ↔ (Namespace.split? declaration).isSome = true := by
  rw [Option.isSome_iff_exists]
  constructor
  · rintro ⟨shape, literals, name, clauses, rfl, hshape, hliterals⟩
    exact ⟨_, Namespace.split?_seq hshape hliterals⟩
  · rintro ⟨⟨front, name, clauses⟩, hsplit⟩
    obtain ⟨shape, literals, rfl, hshape, rfl, hliterals⟩ := Namespace.split?_eq_some hsplit
    exact ⟨shape, literals, name, clauses, rfl, hshape, hliterals⟩

theorem NamesNamespace.role {declaration : Datum} (h : NamesNamespace declaration) :
    declaration.role = .namespace := by
  obtain ⟨shape, literals, name, clauses, rfl, hshape, -⟩ := h
  rw [List.cons_append, role_seq_cons hshape]
  rfl

/-- The declaration is the first child. -/
theorem beginsWithNamespace_iff_childrenIn (head : Datum) {items : List Datum} :
    BeginsWithNamespace items ↔ ∃ declaration content,
      childrenIn (head :: items) = declaration :: content ∧ NamesNamespace declaration := by
  constructor
  · rintro ⟨declaration, content, hnames, rfl | ⟨es, rfl⟩⟩
    · obtain ⟨shape, literals, name, clauses, rfl, -, -⟩ := id hnames
      exact ⟨_, content, rfl, hnames⟩
    · exact ⟨declaration, content, rfl, hnames⟩
  · rintro ⟨declaration, content, hchildren, hnames⟩
    refine ⟨declaration, content, hnames, ?_⟩
    unfold childrenIn at hchildren
    split at hchildren
    · next es xs heq =>
      cases heq
      exact .inr ⟨es, by rw [hchildren]⟩
    · next heq =>
      cases heq
      exact .inl hchildren
    · next heq => cases heq

/-- What needs the name of a declaration, and refuses the declaration without one. -/
theorem acceptsIff_of_split? {α : Type} {declaration : Datum} {x : Except Fault α}
    (hsome : ∀ parts, Namespace.split? declaration = some parts → ∃ a, x = .ok a)
    (hnone : Namespace.split? declaration = none → x = Namespace.refuse declaration) :
    AcceptsIff x (NamesNamespace declaration) := by
  rw [namesNamespace_iff_split?]
  cases hsplit : Namespace.split? declaration with
  | some parts =>
      obtain ⟨a, rfl⟩ := hsome parts hsplit
      exact .of_ok rfl
  | none =>
      rw [hnone hsplit]
      unfold Namespace.refuse text? ifWritable
      -- the text of the declaration may itself be refused
      split
      · exact .of_refusal rfl Bool.false_ne_true
      · exact .of_refusal rfl Bool.false_ne_true

theorem name_acceptsIff (declaration : Datum) :
    AcceptsIff (Namespace.name declaration) (NamesNamespace declaration) := by
  unfold Namespace.name
  apply acceptsIff_of_split?
  · intro parts hsplit
    rw [hsplit]
    exact ⟨_, rfl⟩
  · intro hsplit
    rw [hsplit]

theorem importRuntime_acceptsIff (declaration : Datum) :
    AcceptsIff (Namespace.importRuntime declaration) (NamesNamespace declaration) := by
  unfold Namespace.importRuntime
  apply acceptsIff_of_split?
  · intro parts hsplit
    rw [hsplit]
    exact ⟨_, rfl⟩
  · intro hsplit
    rw [hsplit]

theorem assemble_acceptsIff (declaration : Datum) (content : List Datum) :
    AcceptsIff (Module.assemble declaration content) (NamesNamespace declaration) := by
  have himport := importRuntime_acceptsIff declaration
  unfold Module.assemble
  apply himport.bind id
  intro imported h
  exact .of_ok (himport.accepts.1 ⟨imported, h⟩)

/-! ## Planning and compiling -/

theorem plan_acceptsIff (forms : List Datum) : AcceptsIff (plan (.list forms)) (IsPage forms) := by
  unfold plan
  have hfind : findHtml (.list forms) = findUnique forms .html "the document" := rfl
  rw [hfind]
  apply (findUnique_acceptsIff (by decide)).bind
  · rintro ⟨kids, -, hkids, -⟩
    exact ⟨kids, hkids⟩
  intro html hhtml
  obtain ⟨shape, kids, rfl, -, hkids⟩ := onlyCall_of_findUnique (by decide) hhtml
  have hbodyOf : bodyOf (.seq shape (.symbol Role.html.name :: kids)) =
      findUnique kids .body "<html>" := rfl
  rw [hbodyOf]
  apply (findUnique_acceptsIff (by decide)).bind
  · rintro ⟨kids', items, hkids', hitems, -⟩
    obtain rfl := hkids.unique hkids'
    exact ⟨items, hitems⟩
  intro body hbody
  obtain ⟨shape', items, rfl, -, hitems⟩ := onlyCall_of_findUnique (by decide) hbody
  -- the two calls are found, so the declaration alone decides
  have hpage : IsPage forms ↔ BeginsWithNamespace items := by
    constructor
    · rintro ⟨kids', items', hkids', hitems', hbegins⟩
      obtain rfl := hkids.unique hkids'
      obtain rfl := hitems.unique hitems'
      exact hbegins
    · intro hbegins
      exact ⟨kids, items, hkids, hitems, hbegins⟩
  rw [hpage, beginsWithNamespace_iff_childrenIn (.symbol Role.body.name)]
  simp only [Datum.items, ok_bind]
  split
  · next hchildren =>
    refine .of_refusal rfl ?_
    rintro ⟨declaration, content, h, -⟩
    rw [hchildren] at h
    cases h
  · next declaration content hchildren =>
    have hnames : (∃ d c, childrenIn (.symbol Role.body.name :: items) = d :: c ∧
        NamesNamespace d) ↔ NamesNamespace declaration := by
      rw [hchildren]
      grind
    rw [hnames]
    split
    · refine (assemble_acceptsIff declaration content).bind id fun code hcode => ?_
      refine (name_acceptsIff declaration).bind id fun name hname => ?_
      exact .of_ok ((name_acceptsIff declaration).accepts.1 ⟨name, hname⟩)
    · next hrole =>
      refine .of_refusal rfl fun h => hrole ?_
      rw [h.role]
      rfl

/-- Compiling gives a page exactly for the lists of forms that are one, and refuses the others. -/
theorem compile_accepts_iff_isPage (forms : List Datum) (hforms : ∀ v ∈ forms, v.writable = true)
    (options : CompileOptions) :
    ((∃ bundle, compile (.list forms) options = .ok bundle) ↔ IsPage forms) ∧
      ∀ fault, compile (.list forms) options = .error fault → fault.isRefusal = true := by
  have hplan := plan_acceptsIff forms
  have hcompile : AcceptsIff (compile (.list forms) options) (IsPage forms) := by
    refine hplan.bind id fun p hp => ?_
    obtain ⟨bundle, hbundle, -⟩ := render_succeeds (writable_seq_iff.2 hforms) hp options
    rw [hbundle]
    exact .of_ok (hplan.accepts.1 ⟨p, hp⟩)
  exact ⟨hcompile.accepts, hcompile.refuses⟩

theorem compile_accepts_iff_isPage_odd :
    ∃ declaration body page late options,
      declaration = .call "ns" [.literal "^:dev", .symbol "a", .nil] ∧
      body = .seq .fn [.symbol "body", .map [], declaration, .form [], .form [.int 1, .map []]] ∧
      page = [.map [], .seq .fn [.symbol "html", .vector [], body], .seq .set [.symbol "html"]] ∧
      late = [.call "html" [.call "body" [.str "x", declaration]]] ∧
      options = ⟨"main.js", none, 20, some "html"⟩ ∧
      (∀ v ∈ page ++ late, v.writable = true) ∧
      (∃ bundle, compile (.list page) options = .ok bundle) ∧
      ¬IsPage late ∧ ∃ fault, compile (.list late) options = .error fault ∧
        fault.isRefusal = true := by
  obtain ⟨options, hoptions⟩ : ∃ o : CompileOptions, o = ⟨"main.js", none, 20, some "html"⟩ :=
    ⟨_, rfl⟩
  obtain ⟨late, hlate⟩ : ∃ late, late = [Datum.call "html" [.call "body" [.str "x",
    .call "ns" [.literal "^:dev", .symbol "a", .nil]]]] := ⟨_, rfl⟩
  have hwritable : ∀ v ∈ late, v.writable = true := by
    rw [hlate]
    decide +kernel
  refine ⟨_, _, _, late, options, rfl, rfl, rfl, hlate, hoptions, ?_, ?_, ?_⟩
  · rw [hlate]
    decide +kernel
  · refine (compile_accepts_iff_isPage _ (by decide +kernel) options).1.2 ?_
    refine ⟨_, _, ⟨[.map []], .fn, [.seq .set [.symbol "html"]], rfl, rfl, ?_⟩,
      ⟨[.vector []], .fn, [], rfl, rfl, ?_⟩, _, _, ?_, .inr ⟨[], rfl⟩⟩
    · simp [isCallOf, Shape.isCall]
    · simp [isCallOf]
    · exact ⟨.form, [.literal "^:dev"], "a", [.nil], rfl, rfl, by simp [isLiteral]⟩
  · obtain ⟨haccepts, hrefuses⟩ := compile_accepts_iff_isPage late hwritable options
    have herror : compile (.list late) options = .error .bodyWithoutNamespace := by
      rw [hlate]
      rfl
    refine ⟨fun hpage => ?_, _, herror, hrefuses _ herror⟩
    obtain ⟨bundle, hbundle⟩ := haccepts.2 hpage
    rw [herror] at hbundle
    cases hbundle

end Page

end PageForms
