import PageForms.Page.Source
import PageForms.Proofs.Markup.Faults
import PageForms.Proofs.Page.Acceptance
import PageForms.Proofs.Reader.Faults

/-!
# How compiling a source can fail

Whatever a source holds, compiling it gives a bundle or fails in one of three ways: its forms cannot
be read, something in it is refused, or it is markup in which a declaration of an unknown kind
opens. No stage is given a value of the wrong kind: the stages between a document and its texts
only ask for texts, which are refused if an integer is too long.
-/

namespace PageForms

open Datum

/-! ## Texts of values -/

namespace Datum

private theorem text?_onlyRefuses (v : Datum) : OnlyRefuses v.text? := by
  unfold text? ifWritable
  split
  · exact .ok _
  · exact .error rfl

private theorem label?_onlyRefuses (v : Datum) : OnlyRefuses v.label? := by
  unfold label? ifWritable
  split
  · exact .ok _
  · exact .error rfl

private theorem layOut?_onlyRefuses (v : Datum) (width indent : Int) :
    OnlyRefuses (v.layOut? width indent) := by
  unfold layOut? ifWritable
  split
  · exact .ok _
  · exact .error rfl

private theorem labels_onlyRefuses (e : Datum × Datum) :
    OnlyRefuses (do return (← e.1.label?, ← e.2.label?)) :=
  (label?_onlyRefuses _).bind fun _ _ => (label?_onlyRefuses _).bind fun _ _ => .ok _

end Datum

/-! ## Stylesheets -/

namespace Stylesheet

private theorem pathText_onlyRefuses (path : Datum) : OnlyRefuses (pathText path) :=
  (FaultsIn.mapM fun _ _ => label?_onlyRefuses _).bind fun _ _ => .ok _

private theorem selectorText_onlyRefuses (run : List Datum) : OnlyRefuses (selectorText run) :=
  (FaultsIn.mapM fun _ _ => pathText_onlyRefuses _).bind fun _ _ => .ok _

private theorem propertyText_onlyRefuses (run : List Datum) : OnlyRefuses (propertyText run) :=
  (FaultsIn.mapM fun e _ => labels_onlyRefuses e).bind fun _ _ => .ok _

private theorem text_onlyRefuses (items : List Datum) : OnlyRefuses (text items) := by
  refine (FaultsIn.mapM fun rule _ => ?_).bind fun _ _ => .ok _
  apply (selectorText_onlyRefuses _).bind
  intro selectors _
  exact (propertyText_onlyRefuses _).bind fun _ _ => .ok _

private theorem compileForm_onlyRefuses {v : Datum} (hrole : v.role = .style) :
    OnlyRefuses (compileForm v) := by
  obtain ⟨shape, xs, rfl, -⟩ := eq_seq_of_role hrole (by decide)
  unfold compileForm
  rw [dropItems, ok_bind, items, ok_bind]
  simp only
  split
  · exact (text_onlyRefuses _).bind fun _ _ => .ok _
  · exact .ok _

end Stylesheet

namespace Datum

private theorem replaceWhere_faultsIn {q : Fault → Prop} {p : Datum → Bool}
    {f : Datum → Except Fault Datum}
    (hf : ∀ v, p v = true → FaultsIn q (f v)) (v : Datum) : FaultsIn q (v.replaceWhere p f) := by
  induction v using induction_items with
  | step v ih =>
      unfold replaceWhere
      split
      · next shape xs =>
        split
        · next hp => exact hf _ hp
        · rw [replaceWhereIn_eq_mapM]
          exact (FaultsIn.mapM fun x hx => ih shape xs rfl x hx).map _
      · split
        · next hp => exact hf _ hp
        · exact .ok _

end Datum

theorem Stylesheet.compileAll_onlyRefuses (v : Datum) : OnlyRefuses (compileAll v) :=
  replaceWhere_faultsIn (fun _ hp => compileForm_onlyRefuses (beq_iff_eq.1 hp)) v

/-! ## Nodes -/

namespace Datum

private theorem attributeValue_onlyRefuses (v : Datum) : OnlyRefuses v.attributeValue := by
  unfold attributeValue
  split
  · exact .ok _
  · refine (FaultsIn.mapM fun e _ => ?_).bind fun _ _ => .ok _
    exact (label?_onlyRefuses _).bind fun _ _ => (label?_onlyRefuses _).bind fun _ _ => .ok _
  · exact (text?_onlyRefuses _).map _
  · exact (label?_onlyRefuses _).map _

private theorem attributesOf_onlyRefuses (es : Entries) : OnlyRefuses (attributesOf es) := by
  refine (FaultsIn.mapM fun e _ => ?_).bind fun _ _ => .ok _
  exact (label?_onlyRefuses _).bind fun _ _ => (attributeValue_onlyRefuses _).bind fun _ _ => .ok _

private theorem joinLabels_onlyRefuses (xs : List Datum) : OnlyRefuses (joinLabels xs) :=
  (FaultsIn.mapM fun _ _ => label?_onlyRefuses _).bind fun _ _ => .ok _

private theorem elementMarkup_onlyRefuses {name : String} {es : Entries} {kids : List Datum}
    {content : Except Fault (List Node)} (hcontent : OnlyRefuses content) :
    OnlyRefuses (elementMarkup name es kids content) := by
  unfold elementMarkup
  split
  · exact (joinLabels_onlyRefuses _).bind fun _ _ => .ok _
  split
  · exact (joinLabels_onlyRefuses _).bind fun _ _ => .ok _
  · exact (attributesOf_onlyRefuses es).bind fun _ _ => hcontent.bind fun _ _ => .ok _

private theorem listMarkup_faultsIn {q : Fault → Prop} {xs : List Datum}
    (h : ∀ x ∈ xs, FaultsIn q x.toMarkup) : FaultsIn q (listMarkup xs) := by
  induction xs with
  | nil => exact .ok _
  | cons x xs ih =>
      rw [listMarkup]
      apply (h x (by simp)).bind
      intro front _
      exact (ih fun y hy => h y (by simp [hy])).bind fun _ _ => .ok _

private theorem toMarkup_onlyRefuses (v : Datum) : OnlyRefuses v.toMarkup := by
  induction v using induction_items with
  | step v ih =>
      have helement : ∀ shape name es xs kids, v = .seq shape xs → (∀ k ∈ kids, k ∈ xs) →
          OnlyRefuses (elementMarkup name es kids (listMarkup kids)) := by
        intro shape name es xs kids hv hkids
        apply elementMarkup_onlyRefuses
        exact listMarkup_faultsIn fun k hk => ih shape xs hv k (hkids k hk)
      unfold toMarkup
      split
      · exact .ok _
      · exact .ok _
      · exact helement _ _ _ _ _ rfl (by simp +contextual)
      · exact helement _ _ _ _ _ rfl (by simp +contextual)
      · exact helement _ _ _ _ _ rfl (by simp +contextual)
      · exact helement _ _ _ _ _ rfl (by simp +contextual)
      · exact (text?_onlyRefuses _).bind fun _ _ => .ok _
      · exact (text?_onlyRefuses _).bind fun _ _ => .ok _
      · exact (label?_onlyRefuses _).bind fun _ _ => .ok _

/-- The nodes of a value have an HTML text. -/
theorem renderable_of_toMarkup (v : Datum) {nodes : List Node} (h : v.toMarkup = .ok nodes) :
    ∀ n ∈ nodes, n.renderable = true := by
  induction v using induction_items generalizing nodes with
  | step v ih =>
      cases helement : v.element? with
      | none =>
          intro n hn
          obtain ⟨s, rfl | rfl⟩ := toMarkup_of_element?_eq_none helement h n hn <;> rfl
      | some element =>
          obtain ⟨name, kids⟩ := element
          obtain ⟨attrs, inner, hinner, rfl⟩ := toMarkup_of_element? helement h
          obtain ⟨shape, xs, rfl, -, -, rfl⟩ := eq_seq_of_element? helement
          intro n hn
          rw [List.mem_singleton.1 hn, Node.renderable, Node.allRenderable_eq_all]
          have hcontent : inner.all Node.renderable = true := by
            rw [List.all_eq_true]
            intro m hm
            obtain ⟨x, hx, ns, hns, hm⟩ := exists_of_mem_listMarkup hinner m hm
            exact ih shape _ rfl x (mem_of_mem_childrenIn hx) hns m hm
          rw [hcontent, Bool.or_true]

end Datum

/-! ## Pages -/

namespace Page

private theorem toPageForm_onlyRefuses (v : Datum) : OnlyRefuses (toPageForm v) :=
  (Stylesheet.compileAll_onlyRefuses v).bind fun _ _ => .ok _

private theorem findUnique_onlyRefuses (values : List Datum) (role : Role) (place : String) :
    OnlyRefuses (findUnique values role place) := by
  unfold findUnique
  split
  · exact .error rfl
  · exact .ok _
  · exact .error rfl

/-- Some of the values that have a role are walked over without a fault. -/
theorem items_of_role {v : Datum} {role : Role} (h : v.role = role)
    (hrole : role ∈ [Role.namespace, .html, .body, .style]) : ∃ xs, v.items = .ok xs := by
  obtain ⟨shape, xs, rfl, -⟩ := eq_seq_of_role h hrole
  exact ⟨_, rfl⟩

private theorem role_of_findHtml {document html : Datum} (h : findHtml document = .ok html) :
    html.role = .html := by
  rcases findHtml_eq_ok h with ⟨hrole, rfl⟩ | ⟨-, items, -, hfilter⟩
  · exact hrole
  · exact (role_of_filter hfilter).2

private theorem findHtml_onlyRefuses (shape : Shape) (xs : List Datum) :
    OnlyRefuses (findHtml (.seq shape xs)) := by
  unfold findHtml
  split
  · exact .ok _
  · exact findUnique_onlyRefuses _ _ _

private theorem bodyOf_onlyRefuses {html : Datum} (h : html.role = .html) :
    OnlyRefuses (bodyOf html) := by
  obtain ⟨xs, hxs⟩ := items_of_role h (by decide)
  unfold bodyOf
  rw [hxs]
  exact findUnique_onlyRefuses _ _ _

private theorem plan_onlyRefuses (shape : Shape) (xs : List Datum) :
    OnlyRefuses (plan (.seq shape xs)) := by
  unfold plan
  apply (findHtml_onlyRefuses shape xs).bind
  intro html hhtml
  apply (bodyOf_onlyRefuses (role_of_findHtml hhtml)).bind
  intro body hbody
  obtain ⟨items, hitems⟩ := items_of_role (role_of_bodyOf hbody) (by decide)
  rw [hitems, ok_bind]
  split
  · exact .error rfl
  · next declaration content _ =>
    split
    · refine FaultsIn.bind (assemble_acceptsIff declaration content).refuses fun code _ => ?_
      exact FaultsIn.bind (name_acceptsIff declaration).refuses fun name _ => .ok _
    · exact .error rfl

private theorem render_onlyRefuses {shape : Shape} {xs : List Datum} {p : Plan}
    (h : plan (.seq shape xs) = .ok p) (options : CompileOptions) :
    OnlyRefuses (p.render options) := by
  obtain ⟨hdocument, hhtml, -⟩ := plan_eq_ok h
  have hcompiled : OnlyRefuses (p.compiledHtml options) := by
    obtain ⟨items, hitems⟩ := items_of_role (role_of_findHtml hhtml) (by decide)
    apply (FaultsIn.mapM fun v _ => toPageForm_onlyRefuses v).bind
    intro content _
    rw [hitems]
    simp only [ok_bind]
    split
    · exact .ok _
    · refine (FaultsIn.mapM fun kid _ => ?_).bind fun _ _ => .ok _
      split
      · exact .ok _
      · exact toPageForm_onlyRefuses kid
  have hforms : OnlyRefuses (p.compiledForms options) := by
    apply hcompiled.bind
    intro html _
    split
    · exact .ok _
    · rw [hdocument]
      exact .ok _
  apply hforms.bind
  intro forms _
  apply (listMarkup_faultsIn fun v _ => toMarkup_onlyRefuses v).bind
  intro nodes hnodes
  have hrenderable : Node.allRenderable nodes = true := by
    rw [Node.allRenderable_eq_all, List.all_eq_true]
    intro n hn
    obtain ⟨x, -, ns, hns, hn⟩ := exists_of_mem_listMarkup hnodes n hn
    exact renderable_of_toMarkup x hns n hn
  rw [Node.page?, if_pos hrenderable, ok_bind]
  refine FaultsIn.bind ?_ fun _ _ => .ok _
  refine (FaultsIn.mapM fun v _ => ?_).bind fun _ _ => .ok _
  exact (layOut?_onlyRefuses v _ _).bind fun _ _ => .ok _

/-! ## Namespace sources -/

private theorem prependChildren_seq (shape : Shape) (x : Datum) (xs kids : List Datum) :
    ∃ v, (Datum.seq shape (x :: xs)).prependChildren kids = .ok v := by
  unfold prependChildren children
  rw [attributes?, ok_bind, get_zero, ok_bind, ok_bind]
  cases attributesIn (x :: xs) <;> exact ⟨_, rfl⟩

private theorem findBody_onlyRefuses (shape : Shape) (xs : List Datum) :
    OnlyRefuses (findBody (.seq shape xs)) :=
  (findHtml_onlyRefuses shape xs).bind fun _ hhtml => bodyOf_onlyRefuses (role_of_findHtml hhtml)

/-- A source is lifted to a form or refused. -/
theorem liftSource_cases (forms : List Datum) :
    (∃ shape xs, liftSource (.list forms) = .ok (.seq shape xs)) ∨
      ∃ e, liftSource (.list forms) = .error e ∧ e.isRefusal = true := by
  cases forms with
  | nil => exact .inr ⟨_, rfl, rfl⟩
  | cons first rest =>
      have hfirst : (Datum.list (first :: rest)).get 0 = .ok first := get_zero ..
      by_cases hnamespace : first.role = .namespace
      · rcases List.eq_nil_or_concat rest with rfl | ⟨logic, html, hrest⟩
        · unfold liftSource
          rw [if_pos (by rfl), hfirst, ok_bind]
          simp only [hnamespace]
          exact .inr ⟨_, rfl, rfl⟩
        · rw [hrest, List.concat_eq_append, liftSource_of_namespace hnamespace]
          split
          · exact .inr ⟨_, rfl, rfl⟩
          · next hrole =>
            have hhtml : html.role = .html := by simpa using hrole
            obtain ⟨shape, xs, rfl, hshape⟩ := eq_seq_of_role hhtml (by decide)
            cases hstyled : Stylesheet.compileAll (.seq shape (.symbol Role.html.name :: xs)) with
            | error e => exact .inr ⟨e, rfl, Stylesheet.compileAll_onlyRefuses _ e hstyled⟩
            | ok styled =>
                obtain ⟨ys, rfl⟩ := compileAll_html hshape hstyled
                rw [ok_bind]
                cases hbody : findBody (.seq shape (.symbol "html" :: ys)) with
                | error e => exact .inr ⟨e, rfl, findBody_onlyRefuses _ _ e hbody⟩
                | ok body =>
                    obtain ⟨page, -, hbody⟩ := bind_eq_ok hbody
                    obtain ⟨_, zs, rfl, -⟩ := eq_seq_of_role (role_of_bodyOf hbody) (by decide)
                    obtain ⟨lifted, hlifted⟩ := prependChildren_seq _ _ zs
                      [first, .call "do" (logic ++ [.nil])]
                    rw [ok_bind, hlifted, ok_bind]
                    exact .inl ⟨_, _, rfl⟩
      · unfold liftSource
        rw [if_pos (by rfl), hfirst, ok_bind]
        simp only
        split
        · next hhtml =>
          obtain ⟨shape, xs, rfl, -⟩ := eq_seq_of_role hhtml (by decide)
          exact .inl ⟨shape, _, rfl⟩
        · next h => exact absurd h hnamespace
        · exact .inr ⟨_, rfl, rfl⟩

/-! ## Sources -/

def IsFault (e : Fault) : Prop :=
  e.isNotation = true ∨ e.isRefusal = true

private theorem listToForms_faultsIn {ns : List Node} (h : ∀ n ∈ ns, FaultsIn IsFault n.toForms) :
    FaultsIn IsFault (Node.listToForms ns) := by
  induction ns with
  | nil => exact .ok _
  | cons n ns ih =>
      rw [Node.listToForms]
      apply (h n (by simp)).bind
      intro front _
      exact (ih fun m hm => h m (by simp [hm])).bind fun _ _ => .ok _

private theorem toForms_faultsIn {p : String → Attributes → Prop} {n : Node} (h : n.Each p) :
    FaultsIn IsFault n.toForms := by
  induction h with
  | text s => exact .ok _
  | comment s => exact .ok _
  | element _ _ ih =>
      rw [Node.toForms]
      split
      · exact fun _ => Reader.isNotation_or_isRefusal_of_read
      · exact (listToForms_faultsIn ih).bind fun _ _ => .ok _

/-- The document of a source is a form; or there is none, and the source is at fault. -/
theorem documentOf_cases (kind : SourceKind) (text : String) :
    (∃ shape xs, documentOf kind text = .ok (.seq shape xs)) ∨
      ∃ e, documentOf kind text = .error e ∧ (IsFault e ∨
        kind = .markup ∧ e = .unknownDeclaration ∧ Document.parse text = .error e) := by
  cases kind with
  | markup =>
      unfold documentOf formsOfMarkup
      cases hparse : Document.parse text with
      | error e =>
          refine .inr ⟨e, rfl, ?_⟩
          rcases Document.parse_faultsIn text e hparse with rfl | he
          · exact .inr ⟨rfl, rfl, rfl⟩
          · exact .inl (.inr he)
      | ok nodes =>
          rw [ok_bind]
          cases hforms : Node.listToForms nodes with
          | error e =>
              have hnodes := Document.nodup_of_parse hparse
              exact .inr ⟨e, rfl, .inl (listToForms_faultsIn
                (fun n hn => toForms_faultsIn (hnodes n hn)) e hforms)⟩
          | ok forms => exact .inl ⟨.list, forms, rfl⟩
  | «namespace» =>
      unfold documentOf
      cases hread : Reader.read text with
      | error e => exact .inr ⟨e, rfl, .inl (Reader.isNotation_or_isRefusal_of_read hread)⟩
      | ok forms =>
          rcases liftSource_cases forms with ⟨shape, xs, hlift⟩ | ⟨e, hlift, he⟩
          · exact .inl ⟨shape, xs, hlift⟩
          · exact .inr ⟨e, hlift, .inl (.inr he)⟩

theorem compileSource_faultsIn (kind : SourceKind) (text : String) (options : CompileOptions) :
    FaultsIn (fun e => IsFault e ∨
        kind = .markup ∧ e = .unknownDeclaration ∧ Document.parse text = .error e)
      (compileSource kind text options) := by
  unfold compileSource planSource
  rcases documentOf_cases kind text with ⟨shape, xs, hdocument⟩ | ⟨e, hdocument, he⟩
  · rw [hdocument, ok_bind]
    refine ((plan_onlyRefuses shape xs).imp fun _ he => .inl (.inr he)).bind fun p hp => ?_
    exact (render_onlyRefuses hp options).imp fun _ he => .inl (.inr he)
  · rw [hdocument]
    exact .error he

end Page

end PageForms
