import PageForms.Proofs.Datum.Writable
import PageForms.Proofs.Markup.RoundTrip
import PageForms.Proofs.Page.PageTags

/-!
# Writable values can be rendered

Every stage between a value and its text has a result if the value is writable: compiling styles,
giving elements attributes and known tags, turning forms into nodes and laying out a module. A
stage that makes values makes writable ones.
-/

namespace PageForms

open Datum

/-! ## Stylesheets -/

namespace Stylesheet

private theorem mem_of_mem_runs {items run : List Datum} (h : run ∈ runs items) :
    ∀ x ∈ run, x ∈ items := by
  induction items generalizing run with
  | nil => cases h
  | cons x items ih =>
      rw [runs] at h
      split at h
      · next y ys rest hruns =>
        have hfirst := ih (by rw [hruns]; simp : y :: ys ∈ runs items)
        have hrest : ∀ r ∈ rest, ∀ z ∈ r, z ∈ items := fun r hr => ih (by rw [hruns]; simp [hr])
        split at h
        · rcases List.mem_cons.1 h with rfl | h
          · intro z hz
            rcases List.mem_cons.1 hz with rfl | hz
            · simp
            · exact List.mem_cons_of_mem _ (hfirst z hz)
          · exact fun z hz => List.mem_cons_of_mem _ (hrest run h z hz)
        · rcases List.mem_cons.1 h with rfl | h
          · simp
          · rcases List.mem_cons.1 h with rfl | h
            · exact fun z hz => List.mem_cons_of_mem _ (hfirst z hz)
            · exact fun z hz => List.mem_cons_of_mem _ (hrest run h z hz)
      · rcases List.mem_cons.1 h with rfl | h
        · simp
        · exact fun z hz => List.mem_cons_of_mem _ (ih h z hz)

private theorem mem_of_mem_rules {items : List Datum} {rule : List Datum × List Datum}
    (h : rule ∈ rules items) : (∀ x ∈ rule.1, x ∈ items) ∧ ∀ x ∈ rule.2, x ∈ items := by
  obtain ⟨hselectors, hproperties⟩ := List.of_mem_zip h
  constructor
  · exact mem_of_mem_runs (List.mem_filter.1 hselectors).1
  · split at hproperties
    · exact mem_of_mem_runs (List.mem_filter.1 (List.mem_of_mem_tail hproperties)).1
    · exact mem_of_mem_runs (List.mem_filter.1 hproperties).1

private theorem writable_of_mem_paths {selector path : Datum} (hselector : selector.writable = true)
    (h : path ∈ paths selector) : path.writable = true := by
  unfold paths at h
  split at h
  · split at h
    · exact writable_seq_iff.1 hselector path h
    · rwa [List.mem_singleton.1 h]
  · rwa [List.mem_singleton.1 h]

private theorem pathText_succeeds {path : Datum} (h : path.writable = true) :
    Succeeds (pathText path) fun _ => True := by
  unfold pathText
  refine Succeeds.bind (Succeeds.mapM (q := fun _ => True) ?_) fun _ _ => .ok trivial
  intro name hname
  apply label?_succeeds
  split at hname
  · exact writable_seq_iff.1 h name hname
  · rwa [List.mem_singleton.1 hname]

private theorem selectorText_succeeds {run : List Datum} (h : ∀ x ∈ run, x.writable = true) :
    Succeeds (selectorText run) fun _ => True := by
  unfold selectorText
  refine Succeeds.bind (Succeeds.mapM (q := fun _ => True) ?_) fun _ _ => .ok trivial
  intro path hpath
  obtain ⟨selector, hselector, hpath⟩ := List.mem_flatMap.1 hpath
  exact pathText_succeeds (writable_of_mem_paths (h selector hselector) hpath)

private theorem writable_of_mem_propertiesIn {run : List Datum} (h : ∀ x ∈ run, x.writable = true) :
    ∀ e ∈ propertiesIn run, e.1.writable = true ∧ e.2.writable = true := by
  intro e he
  obtain ⟨x, hx, he⟩ := List.mem_flatMap.1 he
  split at he
  · exact writable_map_iff.1 (h _ hx) e he
  · cases he

private theorem propertyText_succeeds {run : List Datum} (h : ∀ x ∈ run, x.writable = true) :
    Succeeds (propertyText run) fun _ => True := by
  unfold propertyText
  refine Succeeds.bind (Succeeds.mapM (q := fun _ => True) ?_) fun _ _ => .ok trivial
  intro e he
  obtain ⟨hkey, hvalue⟩ := writable_of_mem_propertiesIn h e he
  exact (label?_succeeds hkey).bind fun _ _ =>
    (label?_succeeds hvalue).bind fun _ _ => .ok trivial

theorem text_succeeds {items : List Datum} (h : ∀ x ∈ items, x.writable = true) :
    Succeeds (text items) fun _ => True := by
  unfold text
  refine Succeeds.bind (Succeeds.mapM (q := fun _ => True) ?_) fun _ _ => .ok trivial
  intro rule hrule
  obtain ⟨hselectors, hproperties⟩ := mem_of_mem_rules hrule
  exact (selectorText_succeeds fun x hx => h x (hselectors x hx)).bind fun _ _ =>
    (propertyText_succeeds fun x hx => h x (hproperties x hx)).bind fun _ _ => .ok trivial

private theorem writable_of_mem_bodyOf {items : List Datum} (h : ∀ x ∈ items, x.writable = true) :
    ∀ x ∈ bodyOf items, x.writable = true := by
  unfold bodyOf
  split
  · split
    · next xs _ => exact writable_seq_iff.1 (h (.vector xs) (by simp))
    · exact h
  · exact h

theorem compileForm_succeeds {v : Datum} (hrole : v.role = .style) (h : v.writable = true) :
    Succeeds (compileForm v) fun w => w.writable = true := by
  obtain ⟨shape, xs, rfl, -⟩ := eq_seq_of_role hrole (by decide)
  have hxs : ∀ x ∈ xs, x.writable = true :=
    fun x hx => writable_seq_iff.1 h x (by simp [hx])
  have hbody := writable_of_mem_bodyOf hxs
  unfold compileForm
  refine Succeeds.bind (p := fun rest => rest = .seq shape xs) (.ok rfl) ?_
  rintro _ rfl
  refine Succeeds.bind (p := fun items => items = xs) (.ok rfl) ?_
  rintro _ rfl
  simp only
  split
  · exact (text_succeeds hbody).bind fun _ _ => .ok rfl
  · exact .ok h

end Stylesheet

/-! ## Passes over forms -/

namespace Datum

theorem replaceWhereIn_eq_mapM (p : Datum → Bool) (f : Datum → Except Fault Datum)
    (xs : List Datum) : replaceWhereIn p f xs = xs.mapM (replaceWhere p f) := by
  induction xs with
  | nil => rfl
  | cons x xs ih => rw [replaceWhereIn, ih, List.mapM_cons]

theorem replaceWhere_succeeds {p : Datum → Bool} {f : Datum → Except Fault Datum}
    (hf : ∀ v, p v = true → v.writable = true → Succeeds (f v) fun w => w.writable = true)
    (v : Datum) (h : v.writable = true) :
    Succeeds (v.replaceWhere p f) fun w => w.writable = true := by
  induction v using induction_items with
  | step v ih =>
      unfold replaceWhere
      split
      · next shape xs =>
        split
        · next hp => exact hf _ hp h
        · rw [replaceWhereIn_eq_mapM]
          apply Succeeds.map (p := fun ys => ∀ y ∈ ys, y.writable = true)
          · exact Succeeds.mapM fun x hx => ih shape xs rfl x hx (writable_seq_iff.1 h x hx)
          · exact fun ys hys => writable_seq_iff.2 hys
      · split
        · next hp => exact hf _ hp h
        · exact .ok h

theorem writable_form_cons_map_iff {head : Datum} {es : Entries} {xs : List Datum} :
    (form (head :: .map es :: xs)).writable = true ↔
      head.writable = true ∧ (map es).writable = true ∧ ∀ x ∈ xs, x.writable = true := by
  rw [writable_seq_iff, List.forall_mem_cons, List.forall_mem_cons]

private theorem withAttributes_writable (v : Datum) (h : v.writable = true) :
    v.withAttributes.writable = true := by
  induction v using induction_items with
  | step v ih =>
      have hkids : ∀ shape xs ys, v = .seq shape xs → (∀ y ∈ ys, y ∈ xs) →
          ∀ y ∈ listWithAttributes ys, y.writable = true := by
        intro shape xs ys hv hys y hy
        rw [listWithAttributes_eq_map] at hy
        obtain ⟨x, hx, rfl⟩ := List.mem_map.1 hy
        rw [hv] at h
        exact ih shape xs hv x (hys x hx) (writable_seq_iff.1 h x (hys x hx))
      unfold withAttributes
      split
      · next shape name es xs =>
        split
        · apply writable_form_cons_map_iff.2
          have hes := writable_seq_iff.1 h (.map es) (by simp)
          exact ⟨rfl, hes, hkids shape _ xs rfl (by simp +contextual)⟩
        · exact h
      · next shape name xs _ =>
        split
        · apply writable_form_cons_map_iff.2
          exact ⟨rfl, rfl, hkids shape _ xs rfl (by simp +contextual)⟩
        · exact h
      · exact h

private theorem withKnownTags_writable (v : Datum) (h : v.writable = true) :
    v.withKnownTags.writable = true := by
  induction v using induction_items with
  | step v ih =>
      rcases withKnownTags_cases v with ⟨shape, head, es, xs, rfl, -, heq⟩ | ⟨heq, -⟩
      · have hitems := writable_seq_iff.1 h
        obtain ⟨name, hname, -, -⟩ := knownHead_eq head
        rw [heq, hname]
        apply writable_form_cons_map_iff.2
        refine ⟨rfl, hitems (.map es) (by simp), ?_⟩
        intro y hy
        obtain ⟨x, hx, rfl⟩ := List.mem_map.1 hy
        exact ih shape _ rfl x (by simp [hx]) (hitems x (by simp [hx]))
      · rwa [heq]

/-! ## Nodes -/

private theorem attributeValue_succeeds {v : Datum} (h : v.writable = true) :
    Succeeds v.attributeValue fun _ => True := by
  unfold attributeValue
  split
  · exact .ok trivial
  · next es =>
    refine Succeeds.bind (Succeeds.mapM (q := fun _ => True) ?_) fun _ _ => .ok trivial
    intro e he
    obtain ⟨hkey, hvalue⟩ := writable_map_iff.1 h e he
    exact (label?_succeeds hkey).bind fun _ _ =>
      (label?_succeeds hvalue).bind fun _ _ => .ok trivial
  · exact (text?_succeeds h).map fun _ _ => trivial
  · exact (label?_succeeds h).map fun _ _ => trivial

private theorem attributesOf_succeeds {es : Entries} (h : (map es).writable = true) :
    Succeeds (attributesOf es) fun _ => True := by
  unfold attributesOf
  refine Succeeds.bind (Succeeds.mapM (q := fun _ => True) ?_) fun _ _ => .ok trivial
  intro e he
  obtain ⟨hkey, hvalue⟩ := writable_map_iff.1 h e (List.mem_filter.1 he).1
  exact (label?_succeeds hkey).bind fun _ _ =>
    (attributeValue_succeeds hvalue).bind fun _ _ => .ok trivial

private theorem joinLabels_succeeds {xs : List Datum} (h : ∀ x ∈ xs, x.writable = true) :
    Succeeds (joinLabels xs) fun _ => True :=
  (Succeeds.mapM fun x hx => label?_succeeds (h x hx)).bind fun _ _ => .ok trivial

def IsRenderable (v : Datum) : Prop :=
  Succeeds v.toMarkup fun nodes => ∀ n ∈ nodes, n.renderable = true

private theorem listMarkup_succeeds {xs : List Datum} (h : ∀ x ∈ xs, x.IsRenderable) :
    Succeeds (listMarkup xs) fun nodes => ∀ n ∈ nodes, n.renderable = true := by
  induction xs with
  | nil => exact .ok (by simp)
  | cons x xs ih =>
      rw [listMarkup]
      apply (h x (by simp)).bind
      intro front hfront
      apply (ih fun y hy => h y (by simp [hy])).bind
      intro rest hrest
      apply Succeeds.ok
      intro n hn
      rcases List.mem_append.1 hn with hn | hn
      · exact hfront n hn
      · exact hrest n hn

private theorem elementMarkup_succeeds {name : String} {es : Entries} {kids : List Datum}
    (hes : (map es).writable = true) (hkids : ∀ k ∈ kids, k.writable = true)
    (hmarkup : ∀ k ∈ kids, k.IsRenderable) :
    Succeeds (elementMarkup name es kids (listMarkup kids)) fun nodes =>
      ∀ n ∈ nodes, n.renderable = true := by
  unfold elementMarkup
  split
  · exact (joinLabels_succeeds hkids).bind fun _ _ => .ok (by simp [Node.renderable])
  split
  · exact (joinLabels_succeeds hkids).bind fun _ _ => .ok (by simp [Node.renderable])
  · apply (attributesOf_succeeds hes).bind
    intro attrs _
    apply (listMarkup_succeeds hmarkup).bind
    intro content hcontent
    apply Succeeds.ok
    intro n hn
    rw [List.mem_singleton.1 hn, Node.renderable, Node.allRenderable_eq_all,
      List.all_eq_true.2 hcontent, Bool.or_true]

private theorem isRenderable_of_writable (v : Datum) (h : v.writable = true) : v.IsRenderable := by
  induction v using induction_items with
  | step v ih =>
      have helement : ∀ shape name es xs kids, v = .seq shape xs → (∀ k ∈ kids, k ∈ xs) →
          (map es).writable = true → Succeeds (elementMarkup name es kids (listMarkup kids))
            fun nodes => ∀ n ∈ nodes, n.renderable = true := by
        intro shape name es xs kids hv hkids hes
        rw [hv] at h
        have hitems := writable_seq_iff.1 h
        apply elementMarkup_succeeds hes fun k hk => hitems k (hkids k hk)
        intro k hk
        exact ih shape xs hv k (hkids k hk) (hitems k (hkids k hk))
      unfold IsRenderable toMarkup
      split
      · exact .ok (by simp)
      · exact .ok (by simp [Node.renderable])
      · next name es xs =>
        exact helement _ name es _ xs rfl (by simp +contextual)
          (writable_seq_iff.1 h (.map es) (by simp))
      · next name es xs =>
        exact helement _ name es _ xs rfl (by simp +contextual)
          (writable_seq_iff.1 h (.map es) (by simp))
      · next name xs _ => exact helement _ name [] _ xs rfl (by simp +contextual) rfl
      · next name xs _ => exact helement _ name [] _ xs rfl (by simp +contextual) rfl
      · exact (text?_succeeds h).bind fun _ _ => .ok (by simp [Node.renderable])
      · exact (text?_succeeds h).bind fun _ _ => .ok (by simp [Node.renderable])
      · exact (label?_succeeds h).bind fun _ _ => .ok (by simp [Node.renderable])

end Datum

/-! ## Modules -/

theorem Namespace.importRuntime_writable {declaration imported : Datum}
    (hd : declaration.writable = true) (h : importRuntime declaration = .ok imported) :
    imported.writable = true := by
  have hexports : runtimeExports.writable = true := by decide
  have hextend : ∀ shape xs, (seq shape xs).writable = true →
      (seq shape (xs ++ [runtimeExports])).writable = true := by
    intro shape xs hxs
    apply writable_seq_iff.2
    intro x hx
    rcases List.mem_append.1 hx with hx | hx
    · exact writable_seq_iff.1 hxs x hx
    · rwa [List.mem_singleton.1 hx]
  have huse : (form [.keyword "use", runtimeExports]).writable = true := by decide
  obtain ⟨shape, xs, ys, rfl, rfl, hitems⟩ :=
    forall_importRuntime (q := fun v => v.writable = true) hextend huse h
  exact writable_seq_iff.2 (hitems (writable_seq_iff.1 hd))

namespace Module

theorem entryPoint_writable {content : List Datum} (h : ∀ v ∈ content, v.writable = true) :
    (entryPoint content).writable = true := by
  have hcontent : allWritable content = true := by
    rwa [allWritable_eq_all, List.all_eq_true]
  simp [entryPoint, call, writable, allWritable, hcontent]

theorem text_succeeds {forms : List Datum} (h : ∀ v ∈ forms, v.writable = true) (width : Int) :
    Succeeds (text forms width) fun _ => True := by
  unfold text
  refine Succeeds.bind (Succeeds.mapM (q := fun _ => True) ?_) fun _ _ => .ok trivial
  intro v hv
  rw [layOut?_of_writable (h v hv)]
  exact .ok trivial

end Module

/-! ## Pages -/

namespace Page

private theorem toPageForm_succeeds {v : Datum} (h : v.writable = true) :
    Succeeds (toPageForm v) fun w => w.writable = true := by
  unfold toPageForm Stylesheet.compileAll
  apply Succeeds.bind (p := fun styled => styled.writable = true)
  · apply replaceWhere_succeeds _ v h
    intro w hw
    exact Stylesheet.compileForm_succeeds (beq_iff_eq.1 hw)
  · intro styled hstyled
    exact .ok (withKnownTags_writable _ (withAttributes_writable styled hstyled))

private theorem bootScripts_writable (path jsUri : String) (baseUri : Option String) :
    ∀ v ∈ bootScripts path jsUri baseUri, v.writable = true := by
  unfold bootScripts
  simp only
  split <;> simp [inlineScript, loadedScript, call, writable, allWritable, entriesWritable]

/-- No part of the plan holds an integer that is too long to be written. -/
structure Plan.Writable (p : Plan) : Prop where
  document : p.document.writable = true
  html : p.html.writable = true
  attributes : (Datum.map p.attributes).writable = true
  code : ∀ v ∈ p.code, v.writable = true
  content : ∀ v ∈ p.content, v.writable = true

private theorem attributesIn_writable {items : List Datum} (h : ∀ x ∈ items, x.writable = true) :
    (map ((attributesIn items).getD [])).writable = true := by
  unfold attributesIn
  split
  · next es _ => exact h (.map es) (by simp)
  · rfl

private theorem plan_writable {document : Datum} {p : Plan} (hdocument : document.writable = true)
    (h : plan document = .ok p) : p.Writable := by
  unfold plan at h
  obtain ⟨html, hhtml, h⟩ := bind_eq_ok h
  obtain ⟨body, hbody, h⟩ := bind_eq_ok h
  obtain ⟨items, hitems, h⟩ := bind_eq_ok h
  have hhtmlWritable : html.writable = true := by
    rcases findHtml_eq_ok hhtml with ⟨-, rfl⟩ | ⟨-, forms, hforms, hunique⟩
    · exact hdocument
    · exact writable_of_items hdocument hforms html (role_of_filter hunique).1
  have hbodyWritable : body.writable = true := by
    obtain ⟨kids, hkids, hunique⟩ := bodyOf_eq_ok hbody
    have hmem := List.mem_of_mem_tail (role_of_filter hunique).1
    exact writable_of_items hhtmlWritable hkids body hmem
  have hitemsWritable := writable_of_items hbodyWritable hitems
  split at h
  · cases h
  · next declaration content hchildren =>
    have hkids : ∀ v ∈ declaration :: content, v.writable = true := by
      rw [← hchildren]
      exact fun v hv => hitemsWritable v (mem_of_mem_childrenIn hv)
    have hcontent : ∀ v ∈ content, v.writable = true := fun v hv => hkids v (by simp [hv])
    split at h
    · obtain ⟨code, hcode, h⟩ := bind_eq_ok h
      obtain ⟨name, -, h⟩ := bind_eq_ok h
      cases h
      obtain ⟨imported, himported, rfl⟩ := Module.assemble_eq_ok hcode
      refine ⟨hdocument, hhtmlWritable, attributesIn_writable hitemsWritable, ?_, hcontent⟩
      intro v hv
      simp only [List.mem_cons, List.not_mem_nil, or_false] at hv
      rcases hv with rfl | rfl
      · exact Namespace.importRuntime_writable (hkids declaration (by simp)) himported
      · exact Module.entryPoint_writable hcontent
    · cases h

variable {p : Plan}

private theorem compiledHtml_succeeds (hp : p.Writable) {shape : Shape} {xs : List Datum}
    (hhtml : p.html = .seq shape xs) (options : CompileOptions) :
    Succeeds (p.compiledHtml options) fun html => html.writable = true := by
  have hitems := hp.html
  rw [hhtml] at hitems
  have hxs := writable_seq_iff.1 hitems
  unfold Plan.compiledHtml
  apply (Succeeds.mapM fun v hv => toPageForm_succeeds (hp.content v hv)).bind
  intro content hcontent
  have hbody : (compiledBody p options content).writable = true := by
    apply writable_form_cons_map_iff.2
    refine ⟨rfl, hp.attributes, ?_⟩
    intro v hv
    rcases List.mem_append.1 hv with hv | hv
    · exact hcontent v hv
    · exact bootScripts_writable _ _ _ v hv
  rw [hhtml, items]
  simp only [ok_bind]
  split
  · exact .ok rfl
  · next head kids =>
    apply Succeeds.bind (p := fun ys => ∀ y ∈ ys, y.writable = true)
    · apply Succeeds.mapM
      intro kid hkid
      split
      · exact .ok hbody
      · exact toPageForm_succeeds (hxs kid (by simp [hkid]))
    · intro ys hys
      apply Succeeds.ok
      apply writable_seq_iff.2
      intro y hy
      rcases List.mem_cons.1 hy with rfl | hy
      · exact hxs _ (by simp)
      · exact hys y hy

private theorem items_replaceRole_succeeds {role : Role} {document new : Datum} {xs : List Datum}
    (hdocument : document.writable = true) (hnew : new.writable = true)
    (hitems : document.items = .ok xs) :
    Succeeds (replaceRole role new document).items fun ys => ∀ y ∈ ys, y.writable = true := by
  unfold replaceRole
  split
  · next shape zs =>
    apply Succeeds.ok
    intro y hy
    obtain ⟨z, hz, rfl⟩ := List.mem_map.1 hy
    split
    · exact hnew
    · exact writable_seq_iff.1 hdocument z hz
  · exact ⟨xs, hitems, writable_of_items hdocument hitems⟩

/-- A page that can be planned can be rendered. -/
theorem render_succeeds {document : Datum} (hdocument : document.writable = true)
    (hplan : plan document = .ok p) (options : CompileOptions) :
    Succeeds (p.render options) fun _ => True := by
  have hp := plan_writable hdocument hplan
  obtain ⟨shape, kids, -, hhtml, -⟩ := html_of_plan hplan
  obtain ⟨hsame, hfind, -⟩ := plan_eq_ok hplan
  have hforms : Succeeds (p.compiledForms options) fun forms => ∀ v ∈ forms, v.writable = true := by
    apply (compiledHtml_succeeds hp hhtml options).bind
    intro html hwritable
    rw [hsame]
    rcases findHtml_eq_ok hfind with ⟨hrole, -⟩ | ⟨hrole, items, hitems, -⟩
    · rw [hrole, if_pos (by rfl)]
      exact .ok (by simpa using hwritable)
    · rw [if_neg (by simpa using hrole)]
      exact items_replaceRole_succeeds hdocument hwritable hitems
  apply hforms.bind
  intro forms hwritable
  apply (listMarkup_succeeds fun v hv => isRenderable_of_writable v (hwritable v hv)).bind
  intro nodes hnodes
  have hpage : Node.allRenderable nodes = true := by
    rw [Node.allRenderable_eq_all, List.all_eq_true]
    exact hnodes
  rw [Node.page?, if_pos hpage]
  exact (Module.text_succeeds hp.code options.width).bind fun _ _ => .ok trivial

end Page

end PageForms
