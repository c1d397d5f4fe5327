import PageForms.Page.Compile
import PageForms.Proofs.Datum.Sharing
import PageForms.Proofs.Page.Module

/-!
# Namespace sources as pages

Lifting a source puts its declaration and its other forms, in order, in front of the children of the
one body of the styled page, and nothing else changes. The plan of the lifted page therefore has the
source's declaration, and its content is the lifted forms followed by the children of the body.
-/

namespace PageForms

open Datum

/-! ## Slices -/

namespace Datum

/-- The slice from the second to the last but one. -/
theorem sliceList_inner {α : Type} (x y : α) (xs : List α) :
    sliceList (x :: (xs ++ [y])) (some 1) (some (-1)) 1 = xs := by
  have hindices : sliceIndices (x :: (xs ++ [y])).length (some 1) (some (-1)) 1 =
      (List.range xs.length).map (· + 1) := by
    have hlength : (x :: (xs ++ [y])).length = xs.length + 2 := by simp
    rw [hlength]
    generalize xs.length = n
    have hstart : clamp (n + 2) 0 ((n + 2 : Nat) : Int) (some 1) 0 = 1 := by
      unfold clamp
      grind
    have hstop : clamp (n + 2) 0 ((n + 2 : Nat) : Int) (some (-1)) ((n + 2 : Nat) : Int) =
        n + 1 := by
      unfold clamp
      grind
    have hcount : (((n : Int) + 1 - 1 + 1 - 1) / 1).toNat = n := by omega
    unfold sliceIndices
    rw [if_pos (by decide)]
    simp only
    rw [hstart, hstop, hcount]
    apply List.map_congr_left
    intro k _
    omega
  rw [sliceList, hindices, List.filterMap_map]
  exact filterMap_getElem?_range xs [y]

theorem get_zero (shape : Shape) (x : Datum) (xs : List Datum) :
    (seq shape (x :: xs)).get 0 = .ok x := by
  have hindex : resolveIndex? (x :: xs).length 0 = some 0 := by
    simp [resolveIndex?]
  simp only [get, items]
  rw [ok_bind, hindex]
  rfl

private theorem get_last (shape : Shape) (xs : List Datum) (y : Datum) :
    (seq shape (xs ++ [y])).get (-1) = .ok y := by
  have hindex : resolveIndex? (xs ++ [y]).length (-1) = some xs.length := by
    simp [resolveIndex?]
  have hlast : (xs ++ [y])[xs.length]? = some y := by simp
  simp only [get, items]
  rw [ok_bind, hindex, Option.bind_some, hlast]
  rfl

end Datum

/-! ## The lifted page -/

namespace Page

theorem findUnique_eq_ok {values : List Datum} {role : Role} {place : String} {v : Datum}
    (h : findUnique values role place = .ok v) :
    values.filter (fun v => v.role == role) = [v] := by
  unfold findUnique at h
  split at h
  · cases h
  · next w hfilter =>
    cases h
    exact hfilter
  · cases h

theorem findUnique_of_filter {values : List Datum} {role : Role} {v : Datum}
    (h : values.filter (fun v => v.role == role) = [v]) (place : String) :
    findUnique values role place = .ok v := by
  unfold findUnique
  rw [h]

theorem role_of_filter {xs : List Datum} {r : Role} {v : Datum}
    (h : xs.filter (fun v => v.role == r) = [v]) : v ∈ xs ∧ v.role = r := by
  obtain ⟨front, back, rfl, hrole, -⟩ := exists_split_of_filter h
  exact ⟨by simp, beq_iff_eq.1 hrole⟩

theorem findHtml_of_role {document : Datum} (h : document.role = .html) :
    findHtml document = .ok document := by
  unfold findHtml
  rw [h]
  rfl

theorem bodyOf_eq_ok {html body : Datum} (h : bodyOf html = .ok body) :
    ∃ items, html.items = .ok items ∧ items.tail.filter (fun v => v.role == .body) = [body] := by
  unfold bodyOf at h
  obtain ⟨items, hitems, h⟩ := bind_eq_ok h
  exact ⟨items, hitems, findUnique_eq_ok h⟩

theorem role_of_bodyOf {html body : Datum} (h : bodyOf html = .ok body) : body.role = .body := by
  obtain ⟨items, -, hfilter⟩ := bodyOf_eq_ok h
  exact (role_of_filter hfilter).2

/-- Compiling the styles of an `html` form leaves it one. -/
theorem compileAll_html {shape : Shape} {xs : List Datum} {styled : Datum}
    (hshape : shape.isCall = true)
    (h : Stylesheet.compileAll (.seq shape (.symbol "html" :: xs)) = .ok styled) :
    ∃ ys, styled = .seq shape (.symbol "html" :: ys) := by
  have hrole : (Datum.seq shape (.symbol "html" :: xs)).role = .html :=
    role_seq_cons hshape _ xs
  unfold Stylesheet.compileAll at h
  rw [replaceWhere, hrole, if_neg (by decide)] at h
  obtain ⟨ys, hys, rfl⟩ := map_eq_ok h
  rw [replaceWhereIn] at hys
  obtain ⟨y, hy, hys⟩ := bind_eq_ok hys
  obtain ⟨zs, -, hys⟩ := bind_eq_ok hys
  cases hy
  cases hys
  exact ⟨zs, rfl⟩

/-- The body of a lifted page: the declaration and the forms behind it in front of the children. -/
def liftedBody (attributes : Entries) (declaration : Datum) (logic kids : List Datum) : Datum :=
  .form (.symbol "body" :: .map attributes :: declaration :: .call "do" (logic ++ [.nil]) :: kids)

private theorem prependChildren_body {body v : Datum} {xs : List Datum} (hbody : body.role = .body)
    (h : body.prependChildren xs = .ok v) :
    ∃ attributes rest kids, body.children = .ok rest ∧ rest.items = .ok kids ∧
      v = .form (.symbol "body" :: .map attributes :: xs ++ kids) := by
  obtain ⟨shape, ys, rfl, -⟩ := eq_seq_of_role hbody (by decide)
  unfold prependChildren at h
  obtain ⟨attrs, -, h⟩ := bind_eq_ok h
  obtain ⟨head, hhead, h⟩ := bind_eq_ok h
  obtain ⟨rest, hrest, h⟩ := bind_eq_ok h
  obtain ⟨kids, hkids, h⟩ := bind_eq_ok h
  rw [get_zero] at hhead
  cases hhead
  cases h
  exact ⟨attrs.getD [], rest, kids, hrest, hkids, rfl⟩

/-- A source that starts with a declaration is lifted into its last form. -/
theorem liftSource_of_namespace {declaration : Datum} (h : declaration.role = .namespace)
    (logic : List Datum) (html : Datum) :
    liftSource (.list (declaration :: (logic ++ [html]))) =
      if html.role != .html then .error .lastNotMarkup
      else do
        let styled ← Stylesheet.compileAll html
        let body ← findBody styled
        let lifted ← body.prependChildren [declaration, .call "do" (logic ++ [.nil])]
        return replaceRole .body lifted styled := by
  have hfirst : (Datum.list (declaration :: (logic ++ [html]))).get 0 = .ok declaration :=
    get_zero ..
  have hlast : (Datum.list (declaration :: (logic ++ [html]))).get (-1) = .ok html :=
    get_last .list (declaration :: logic) html
  have hslice : (Datum.list (declaration :: (logic ++ [html]))).slice (some 1) (some (-1)) 1 =
      .ok (.list logic) := by
    rw [slice, if_neg (by decide), sliceList_inner]
  have hsize : (Datum.list (declaration :: (logic ++ [html]))).size = .ok (logic.length + 2) := by
    simp [size, items, ok_bind, pure, Except.pure]
  unfold liftSource
  rw [show isPresent (.list (declaration :: (logic ++ [html]))) = true from rfl, if_pos rfl, hfirst,
    ok_bind]
  simp only [h]
  rw [hsize, ok_bind, if_neg (by omega), hlast, ok_bind]
  split
  · rfl
  · rw [hslice]
    rfl

theorem liftSource_eq_ok {declaration html document : Datum} {logic : List Datum}
    (hdeclaration : declaration.role = .namespace)
    (h : liftSource (.list (declaration :: (logic ++ [html]))) = .ok document) :
    ∃ styled body rest kids attributes, Stylesheet.compileAll html = .ok styled ∧
      findBody styled = .ok body ∧ body.children = .ok rest ∧ rest.items = .ok kids ∧
      html.role = .html ∧
      document = replaceRole .body (liftedBody attributes declaration logic kids) styled := by
  rw [liftSource_of_namespace hdeclaration] at h
  split at h
  · cases h
  · next hrole =>
    obtain ⟨styled, hstyled, h⟩ := bind_eq_ok h
    obtain ⟨body, hbody, h⟩ := bind_eq_ok h
    obtain ⟨newBody, hnew, h⟩ := bind_eq_ok h
    cases h
    have hbodyRole : body.role = .body := by
      unfold findBody at hbody
      obtain ⟨page, -, hbody⟩ := bind_eq_ok hbody
      exact role_of_bodyOf hbody
    obtain ⟨attributes, rest, kids, hrest, hkids, rfl⟩ := prependChildren_body hbodyRole hnew
    exact ⟨styled, body, rest, kids, attributes, hstyled, hbody, hrest, hkids,
      by simpa using hrole, rfl⟩

/-! ## Replacing the form of a role -/

section Unique

variable {r : Role} {shape : Shape} {before after : List Datum} {old : Datum}

theorem replaceRole_of_unique {new : Datum} (hold : old.role = r)
    (hothers : ∀ v ∈ before ++ after, v.role ≠ r) :
    replaceRole r new (.seq shape (before ++ old :: after)) =
      .seq shape (before ++ new :: after) := by
  have hkept : ∀ vs : List Datum, (∀ v ∈ vs, v ∈ before ++ after) →
      (vs.map fun v => if v.role == r then new else v) = vs := by
    intro vs hvs
    rw [List.map_congr_left (g := id), List.map_id]
    intro v hv
    rw [if_neg (by simpa using hothers v (hvs v hv)), id]
  rw [replaceRole, List.map_append, List.map_cons, hkept before (by simp +contextual),
    hkept after (by simp +contextual), hold, beq_self_eq_true, if_pos rfl]

theorem part?_item (shape : Shape) (before : List Datum) (old : Datum) (after : List Datum) :
    (seq shape (before ++ old :: after)).part? [before.length] = some old := by
  rw [part?_seq_cons]
  simp

/-- A form with a role is no constant, so it stands nowhere else. -/
theorem same_item_iff (hr : r ∈ [Role.namespace, .html, .body, .style]) (hold : old.role = r)
    (other : List Nat) :
    (constantsShared (.seq shape (before ++ old :: after))).same [before.length] other = true ↔
      other = [before.length] := by
  obtain ⟨_, _, rfl, -⟩ := eq_seq_of_role hold hr
  rw [constantsShared_same_iff (part?_item ..) (.inl rfl)]
  simp

/-- Replacing the node of an item that has a role changes this item and nothing else. -/
theorem replaceNode_item (hr : r ∈ [Role.namespace, .html, .body, .style]) (hold : old.role = r)
    (new : Datum) :
    (seq shape (before ++ old :: after)).replaceNode [(before.length : Int)] new =
        .ok (.seq shape (before ++ new :: after)) ∧
      ReplacedAt (.seq shape (before ++ old :: after)) (· = [before.length]) new
        (.seq shape (before ++ new :: after)) := by
  have hnode := replaceNode_of_part? new (part?_item shape before old after)
  have hreplaced := (constantsShared _).replacedAt (part?_item shape before old after) new
  rw [Sharing.replace_item _ new fun other => (same_item_iff hr hold other).1] at hnode hreplaced
  exact ⟨hnode, hreplaced.congr (same_item_iff hr hold)⟩

/-- The only item of a role is replaced as the node at its place is. -/
theorem replaceNode_eq_replaceRole (hr : r ∈ [Role.namespace, .html, .body, .style])
    (hold : old.role = r) (hothers : ∀ v ∈ before ++ after, v.role ≠ r) (new : Datum) :
    (seq shape (before ++ old :: after)).replaceNode [(before.length : Int)] new =
      .ok (replaceRole r new (.seq shape (before ++ old :: after))) := by
  rw [replaceRole_of_unique hold hothers]
  exact (replaceNode_item hr hold new).1

end Unique

/-- Lifting a source replaces the node of the body of the styled page and changes nothing else. -/
theorem liftSource_replaces_body {declaration html document : Datum} {logic : List Datum}
    (hdeclaration : declaration.role = .namespace)
    (h : liftSource (.list (declaration :: (logic ++ [html]))) = .ok document) :
    ∃ styled body lifted i, Stylesheet.compileAll html = .ok styled ∧
      findBody styled = .ok body ∧ styled.part? [i] = some body ∧
      styled.replaceNode [(i : Int)] lifted = .ok document ∧
      ReplacedAt styled (· = [i]) lifted document := by
  obtain ⟨styled, body, _, kids, attributes, hstyled, hbody, -, -, hrole, rfl⟩ :=
    liftSource_eq_ok hdeclaration h
  obtain ⟨shape, xs, rfl, hshape⟩ := eq_seq_of_role hrole (by decide)
  obtain ⟨ys, rfl⟩ := compileAll_html hshape hstyled
  have hbodyOf := hbody
  rw [findBody, findHtml_of_role (role_seq_cons hshape _ ys), ok_bind] at hbodyOf
  obtain ⟨_, hitems, hfilter⟩ := bodyOf_eq_ok hbodyOf
  cases hitems
  obtain ⟨front, back, hsplit, hbodyRole, hkept⟩ := exists_split_of_filter hfilter
  rw [List.tail_cons] at hsplit
  subst hsplit
  rw [beq_iff_eq] at hbodyRole
  have hothers : ∀ v ∈ .symbol "html" :: front ++ back, v.role ≠ .body := by
    intro v hv
    rcases List.mem_cons.1 hv with rfl | hv
    · decide
    · simpa using hkept v hv
  rw [← List.cons_append] at hstyled hbody ⊢
  rw [replaceRole_of_unique hbodyRole hothers]
  exact ⟨_, body, _, _, hstyled, hbody, part?_item .., replaceNode_item (by decide) hbodyRole _⟩

/-! ## The plan of the lifted page -/

theorem filter_replaceRole {xs : List Datum} {role : Role} {old new : Datum}
    (h : xs.filter (fun v => v.role == role) = [old]) (hnew : new.role = role) :
    (xs.map fun v => if v.role == role then new else v).filter (fun v => v.role == role) =
      [new] := by
  have hold := (role_of_filter h).2
  have hsame : (fun v : Datum => v.role == role) ∘ (fun v => if v.role == role then new else v) =
      fun v => v.role == role := by
    funext v
    simp only [Function.comp]
    split
    · next hv => rw [hnew, hv, beq_self_eq_true]
    · rfl
  rw [List.filter_map, hsame, h, List.map_singleton, hold, beq_self_eq_true, if_pos rfl]

/-- The parts of a lifted page. -/
theorem plan_lifted {shape : Shape} {ys logic kids : List Datum} {attributes : Entries}
    {declaration body : Datum} {p : Plan} (hshape : shape.isCall = true)
    (hbody : findBody (.seq shape (.symbol "html" :: ys)) = .ok body)
    (hplan : plan (replaceRole .body (liftedBody attributes declaration logic kids)
      (.seq shape (.symbol "html" :: ys))) = .ok p) :
    ∃ zs, p.document = .seq shape (.symbol "html" :: zs) ∧ p.html = p.document ∧
      zs.filter (fun v => v.role == .body) = [liftedBody attributes declaration logic kids] ∧
      p.content = .call "do" (logic ++ [.nil]) :: kids ∧
      Module.assemble declaration p.content = .ok p.code ∧
      Namespace.name declaration = .ok p.name := by
  have hrole : ∀ zs, (Datum.seq shape (.symbol "html" :: zs)).role = .html := fun zs =>
    role_seq_cons hshape _ zs
  rw [findBody, findHtml_of_role (hrole ys), ok_bind] at hbody
  obtain ⟨items, hitems, hfilter⟩ := bodyOf_eq_ok hbody
  cases hitems
  have hzs := filter_replaceRole hfilter
    (rfl : (liftedBody attributes declaration logic kids).role = .body)
  rw [replaceRole, List.map_cons, role_of_atom (rfl : (Datum.symbol "html").isCollection = false),
    if_neg (by decide)] at hplan
  rw [List.tail_cons] at hzs
  generalize (ys.map fun v =>
    if v.role == .body then liftedBody attributes declaration logic kids else v) = zs at hzs hplan
  unfold plan at hplan
  rw [findHtml_of_role (hrole zs), ok_bind, bodyOf, Datum.items, ok_bind, List.tail_cons,
    findUnique_of_filter hzs, ok_bind, liftedBody, Datum.items, ok_bind] at hplan
  simp only [childrenIn] at hplan
  split at hplan
  · obtain ⟨code, hcode, hplan⟩ := bind_eq_ok hplan
    obtain ⟨name, hname, hplan⟩ := bind_eq_ok hplan
    cases hplan
    exact ⟨zs, rfl, rfl, hzs, rfl, hcode, hname⟩
  · cases hplan

end Page

end PageForms
