import PageForms.Proofs.Reader.Descent
import PageForms.Proofs.Reader.Origin
import PageForms.Proofs.Reader.Placement

/-!
# The grammar of data

`IsDatum ts v` and `AreItems ts vs` say, rule by rule, which lists of tokens are a datum or the
items of a group, and what their values are. The grammar is ambiguous where data are dropped: in
front of an item, `#_` and a datum can be an item of their own or belong to the datum behind them.

The reader accepts exactly this grammar. A derivation gives a run by induction on its rules. For the
converse, `Closes stack ts vs` says what the tokens still to come must derive if they are to
complete everything on the stack, and each step is traced back to one more rule.
-/

namespace PageForms.Reader

/-- The token is a datum by itself, with this value. -/
inductive IsAtom : Token → Datum → Prop
  | string {t : Token} {cs : List Char} (hkind : t.kind = .string)
      (hcs : Text.unquote ((t.text.toList.drop 1).dropLast) = .ok cs) :
      IsAtom t (.str (String.ofList cs))
  | verbatim {t : Token} (hkind : t.kind = .metadata ∨ t.kind = .regex ∨ t.kind = .character) :
      IsAtom t (.literal t.text)
  | atom {t : Token} {v : Datum} (hkind : t.kind = .atom) (hv : readAtom t.text = .ok v) :
      IsAtom t v

mutual

/-- The tokens are one datum, with this value. -/
inductive IsDatum : List Token → Datum → Prop
  | atom {t : Token} {v : Datum} (hatom : IsAtom t v) : IsDatum [t] v
  | seq {opener closer : Token} {shape : Shape} {ts : List Token} {vs : List Datum}
      (hshape : shape.isBracketed = true) (hopener : opener.kind = shape.openKind)
      (hcloser : closer.kind = shape.closeKind) (hitems : AreItems ts vs) :
      IsDatum (opener :: (ts ++ [closer])) (.seq shape vs)
  | map {opener closer : Token} {ts : List Token} {es : Entries}
      (hopener : opener.kind = .openBrace) (hcloser : closer.kind = .closeBrace)
      (hitems : AreItems ts (Entries.items es)) (hes : Entries.Distinct es) :
      IsDatum (opener :: (ts ++ [closer])) (.map es)
  | wrap {mark : Token} {head : String} {ts : List Token} {v : Datum}
      (hmark : wraps? mark.kind = some head) (hv : IsDatum ts v) :
      IsDatum (mark :: ts) (.call head [v])
  | discard {mark : Token} {ts us : List Token} {dropped v : Datum}
      (hmark : mark.kind = .discard) (hdropped : IsDatum ts dropped) (hv : IsDatum us v) :
      IsDatum (mark :: (ts ++ us)) v

/-- The tokens are any number of data, some of them dropped, and these are the values of the
others. -/
inductive AreItems : List Token → List Datum → Prop
  | nil : AreItems [] []
  | cons {ts us : List Token} {v : Datum} {vs : List Datum} (hv : IsDatum ts v)
      (hvs : AreItems us vs) : AreItems (ts ++ us) (v :: vs)
  | discard {mark : Token} {ts us : List Token} {dropped : Datum} {vs : List Datum}
      (hmark : mark.kind = .discard) (hdropped : IsDatum ts dropped) (hvs : AreItems us vs) :
      AreItems (mark :: (ts ++ us)) vs

end

private theorem atomValue?_eq_some_iff {t : Token} {v : Datum} :
    atomValue? t = some (.ok v) ↔ IsAtom t v := by
  constructor
  · intro h
    unfold atomValue? at h
    split at h
    · next hkind =>
      obtain ⟨cs, hcs, rfl⟩ := map_eq_ok (Option.some.inj h)
      exact .string hkind hcs
    · next hkind =>
      cases h
      exact .verbatim (.inl hkind)
    · next hkind =>
      cases h
      exact .verbatim (.inr (.inl hkind))
    · next hkind =>
      cases h
      exact .verbatim (.inr (.inr hkind))
    · next hkind => exact .atom hkind (Option.some.inj h)
    · cases h
  · rintro (⟨hkind, hcs⟩ | hkind | ⟨hkind, hv⟩)
    · rw [atomValue?, hkind]
      simp only [hcs, Except.map_ok]
    · rcases hkind with hkind | hkind | hkind <;> rw [atomValue?, hkind]
    · rw [atomValue?, hkind, hv]

/-! ## What the grammar derives is read -/

/-- Hands data to the innermost unfinished datum, one after the other; the results on the way. -/
def supplyAll : List Frame → List Datum → List Frame × List Datum
  | stack, [] => (stack, [])
  | stack, v :: vs =>
    let next := supplyAll (supply stack v).1 vs
    (next.1, (supply stack v).2.toList ++ next.2)

private theorem supplyAll_nil (vs : List Datum) : supplyAll [] vs = ([], vs) := by
  induction vs with
  | nil => rfl
  | cons v vs ih =>
      simp only [supplyAll, supply, ih, Option.toList_some, List.singleton_append]

private theorem supplyAll_group (opener : Token) (bracket : Bracket) (items : List Datum)
    (stack : List Frame) (vs : List Datum) :
    supplyAll (.group opener bracket items :: stack) vs =
      (.group opener bracket (vs.reverse ++ items) :: stack, []) := by
  induction vs generalizing items with
  | nil => rfl
  | cons v vs ih =>
      simp only [supplyAll, supply, ih, List.reverse_cons, List.append_assoc,
        List.singleton_append, Option.toList_none, List.nil_append]

/-- The tokens hand a datum to whatever is unfinished, and do so with the last one of them: before
it nothing is complete. -/
def Delivers (ts : List Token) (v : Datum) : Prop :=
  ∃ front last, ts = front ++ [last] ∧
    ∀ stack, ∃ inner, Runs stack front inner [] ∧ step inner last = .ok (supply stack v)

theorem Delivers.completes {ts : List Token} {v : Datum} (h : Delivers ts v) : Completes ts v := by
  obtain ⟨front, last, rfl, hrun⟩ := h
  intro stack
  obtain ⟨inner, hfront, hlast⟩ := hrun stack
  exact hfront.append (.single hlast)

/-- A mark in front that changes the stack, and data behind it that make good for the change. -/
theorem Delivers.cons {mark : Token} {ts : List Token} {v w : Datum} {frame : Frame}
    (hmark : ∀ stack, step stack mark = .ok (frame :: stack, none))
    (hsupply : ∀ stack, supply (frame :: stack) v = supply stack w) (h : Delivers ts v) :
    Delivers (mark :: ts) w := by
  obtain ⟨front, last, rfl, hrun⟩ := h
  refine ⟨mark :: front, last, rfl, ?_⟩
  intro stack
  obtain ⟨inner, hfront, hlast⟩ := hrun (frame :: stack)
  rw [hsupply] at hlast
  exact ⟨inner, .cons (hmark stack) hfront, hlast⟩

/-- A dropped datum in front. -/
theorem Delivers.append_left {mark : Token} {ts us : List Token} {dropped v : Datum}
    (hmark : mark.kind = .discard) (hdropped : Delivers ts dropped) (h : Delivers us v) :
    Delivers (mark :: (ts ++ us)) v := by
  obtain ⟨front, last, rfl, hrun⟩ := h
  refine ⟨mark :: (ts ++ front), last, by simp, ?_⟩
  intro stack
  obtain ⟨inner, hfront, hlast⟩ := hrun stack
  have hskip := hdropped.completes (.discard :: stack)
  exact ⟨inner, .cons (step_of_discard hmark stack) (hskip.append hfront), hlast⟩

private theorem delivers_group {opener closer : Token} {bracket : Bracket} {ts : List Token}
    {vs : List Datum} {v : Datum} (hopener : opens? opener.kind = some bracket)
    (hcloser : closer.kind = bracket.closer)
    (hitems : ∀ stack, Runs stack ts (supplyAll stack vs).1 (supplyAll stack vs).2)
    (hclose : closeGroup opener.place bracket vs = .ok v) :
    Delivers (opener :: (ts ++ [closer])) v := by
  refine ⟨opener :: ts, closer, rfl, ?_⟩
  intro stack
  have hrun := hitems (.group opener bracket [] :: stack)
  rw [supplyAll_group, List.append_nil] at hrun
  refine ⟨_, .cons (step_of_opens? hopener stack) hrun, ?_⟩
  rw [step_of_closer hcloser, List.reverse_reverse, hclose]
  rfl

mutual

/-- The tokens of a datum deliver it. -/
theorem IsDatum.delivers {ts : List Token} {v : Datum} : IsDatum ts v → Delivers ts v
  | @IsDatum.atom t _ hatom => by
      refine ⟨[], t, rfl, fun stack => ⟨stack, .nil, ?_⟩⟩
      rw [step_of_atomValue? (atomValue?_eq_some_iff.2 hatom)]
      rfl
  | .seq hshape hopener hcloser hitems => by
      rw [← closer_seq hshape] at hcloser
      exact delivers_group (hopener ▸ opens?_openKind hshape) hcloser hitems.runs rfl
  | @IsDatum.map opener _ _ _ hopener hcloser hitems hes => by
      have hopens : opens? opener.kind = some .map := by rw [hopener]; rfl
      exact delivers_group hopens hcloser hitems.runs (buildMap_items hes opener.place)
  | .wrap hmark hv => hv.delivers.cons (step_of_wraps? hmark) fun _ => rfl
  | .discard hmark hdropped hv => hdropped.delivers.append_left hmark hv.delivers

/-- The tokens of items hand over their values one after the other. -/
theorem AreItems.runs {ts : List Token} {vs : List Datum} :
    AreItems ts vs → ∀ stack, Runs stack ts (supplyAll stack vs).1 (supplyAll stack vs).2
  | .nil => fun stack => .nil
  | .cons hv hvs => fun stack => (hv.delivers.completes stack).append (hvs.runs _)
  | .discard hmark hdropped hvs => fun stack => by
      have hskip := hdropped.delivers.completes (.discard :: stack)
      exact .cons (step_of_discard hmark stack) (hskip.append (hvs.runs stack))

end

private theorem IsDatum.readDatum_append {ts : List Token} {v : Datum} (h : IsDatum ts v)
    (rest : List Token) : readDatum (ts ++ rest) = ⟨.ok v, rest⟩ := by
  obtain ⟨front, last, rfl, hrun⟩ := h.delivers
  obtain ⟨inner, hfront, hlast⟩ := hrun []
  rw [readDatum, List.append_assoc, isReader_readDatumFrom.append hfront, List.singleton_append,
    readDatumFrom, hlast]
  rfl

/-! ## What is read is derived -/

/-- The tokens still to come complete everything that is unfinished, the innermost first, and derive
the results that come out of it. -/
inductive Closes : List Frame → List Token → List Datum → Prop
  | nil {ts : List Token} {vs : List Datum} (hvs : AreItems ts vs) : Closes [] ts vs
  | group {opener closer : Token} {bracket : Bracket} {items xs vs : List Datum}
      {stack : List Frame} {ts rest : List Token} {v : Datum} (hitems : AreItems ts xs)
      (hcloser : closer.kind = bracket.closer)
      (hclose : closeGroup opener.place bracket (items.reverse ++ xs) = .ok v)
      (hrest : Closes (supply stack v).1 rest vs) :
      Closes (.group opener bracket items :: stack) (ts ++ closer :: rest)
        ((supply stack v).2.toList ++ vs)
  | wrap {head : String} {stack : List Frame} {ts rest : List Token} {v : Datum}
      {vs : List Datum} (hv : IsDatum ts v)
      (hrest : Closes (supply stack (.call head [v])).1 rest vs) :
      Closes (.wrap head :: stack) (ts ++ rest) ((supply stack (.call head [v])).2.toList ++ vs)
  | discard {stack : List Frame} {ts rest : List Token} {dropped : Datum} {vs : List Datum}
      (hdropped : IsDatum ts dropped) (hrest : Closes stack rest vs) :
      Closes (.discard :: stack) (ts ++ rest) vs

private theorem Closes.append_datum {stack : List Frame} {ts rest : List Token} {v : Datum}
    {vs : List Datum} (hv : IsDatum ts v) (h : Closes (supply stack v).1 rest vs) :
    Closes stack (ts ++ rest) ((supply stack v).2.toList ++ vs) := by
  cases stack with
  | nil =>
      cases h with
      | nil hvs => exact .nil (.cons hv hvs)
  | cons frame stack =>
      cases frame with
      | group opener bracket items =>
          cases h with
          | group hitems hcloser hclose hrest =>
              rw [List.reverse_cons, List.append_assoc] at hclose
              rw [← List.append_assoc]
              exact .group (.cons hv hitems) hcloser hclose hrest
      | wrap head => exact .wrap hv h
      | discard => exact .discard hv h

private theorem Closes.append_dropped {stack : List Frame} {mark : Token} {ts rest : List Token}
    {dropped : Datum} {vs : List Datum} (hmark : mark.kind = .discard)
    (hdropped : IsDatum ts dropped) (h : Closes stack rest vs) :
    Closes stack (mark :: (ts ++ rest)) vs := by
  cases h with
  | nil hvs => exact .nil (.discard hmark hdropped hvs)
  | group hitems hcloser hclose hrest =>
      rw [← List.append_assoc, ← List.cons_append]
      exact .group (.discard hmark hdropped hitems) hcloser hclose hrest
  | wrap hv hrest =>
      rw [← List.append_assoc, ← List.cons_append]
      exact .wrap (.discard hmark hdropped hv) hrest
  | discard hv hrest =>
      rw [← List.append_assoc, ← List.cons_append]
      exact .discard (.discard hmark hdropped hv) hrest

private theorem eq_openKind_of_opens? {kind : TokenKind} {shape : Shape}
    (h : opens? kind = some (.seq shape)) : kind = shape.openKind := by
  cases kind <;> simp only [opens?, Option.some.injEq, Bracket.seq.injEq, reduceCtorEq] at h <;>
    subst h <;> rfl

private theorem eq_openBrace_of_opens? {kind : TokenKind} (h : opens? kind = some .map) :
    kind = .openBrace := by
  cases kind with
  | openBrace => rfl
  | _ => cases h

/-- A group between brackets that match is a datum. -/
theorem isDatum_group {opener closer : Token} {bracket : Bracket} {ts : List Token}
    {xs : List Datum} {v : Datum} (hopener : opens? opener.kind = some bracket)
    (hitems : AreItems ts xs) (hcloser : closer.kind = bracket.closer)
    (hclose : closeGroup opener.place bracket xs = .ok v) :
    IsDatum (opener :: (ts ++ [closer])) v := by
  cases bracket with
  | seq shape =>
      have hshape := isBracketed_of_opens? hopener
      rw [closer_seq hshape] at hcloser
      cases hclose
      exact .seq hshape (eq_openKind_of_opens? hopener) hcloser hitems
  | map =>
      obtain ⟨es, rfl, rfl, hes⟩ := buildMap_eq_ok hclose
      exact .map (eq_openBrace_of_opens? hopener) hcloser hitems hes

/-- One token more in front. -/
theorem Closes.cons {stack stack' : List Frame} {t : Token} {out : Option Datum}
    {ts : List Token} {vs : List Datum} (hstep : step stack t = .ok (stack', out))
    (h : Closes stack' ts vs) : Closes stack (t :: ts) (out.toList ++ vs) := by
  rcases step_cases hstep with ⟨bracket, hopens, rfl, rfl⟩ | ⟨head, hwraps, rfl, rfl⟩ |
    ⟨hdiscard, rfl, rfl⟩ | ⟨v, hv, heq⟩ | ⟨opener, bracket, items, rest, v, rfl, hcloser, hclose,
      heq⟩
  · cases h with
    | group hitems hcloser hclose hrest =>
        have hall := Closes.append_datum (isDatum_group hopens hitems hcloser hclose) hrest
        rwa [List.cons_append, List.append_assoc, List.singleton_append] at hall
  · cases h with
    | wrap hv hrest => exact Closes.append_datum (.wrap hwraps hv) hrest
  · cases h with
    | discard hdropped hrest => exact hrest.append_dropped hdiscard hdropped
  · obtain ⟨rfl, rfl⟩ := Prod.mk.inj heq
    exact Closes.append_datum (.atom (atomValue?_eq_some_iff.1 hv)) h
  · obtain ⟨rfl, rfl⟩ := Prod.mk.inj heq
    rw [← List.append_nil items.reverse] at hclose
    exact .group .nil hcloser hclose h

theorem Runs.closes {stack : List Frame} {ts : List Token} {vs : List Datum}
    (h : Runs stack ts [] vs) : Closes stack ts vs := by
  generalize hend : ([] : List Frame) = last at h
  induction h with
  | nil =>
      subst hend
      exact .nil .nil
  | cons hstep _ ih => exact (ih hend).cons hstep

private theorem areItems_iff_runs {ts : List Token} {vs : List Datum} :
    AreItems ts vs ↔ Runs [] ts [] vs := by
  constructor
  · intro h
    have hrun := h.runs []
    rwa [supplyAll_nil] at hrun
  · intro h
    cases h.closes with
    | nil hvs => exact hvs

/-! ## Reading one datum -/

private theorem runs_of_readDatumFrom {stack : List Frame} {ts rest : List Token} {v : Datum}
    (h : readDatumFrom stack ts = ⟨.ok v, rest⟩) :
    ∃ used, ts = used ++ rest ∧ Runs stack used [] [v] := by
  induction ts generalizing stack with
  | nil => cases h
  | cons t ts ih =>
      unfold readDatumFrom at h
      split at h
      · cases h
      · next inner w hstep =>
        cases h
        obtain rfl := step_eq_some hstep
        exact ⟨[t], rfl, .single hstep⟩
      · next inner hstep =>
        obtain ⟨used, rfl, hrun⟩ := ih h
        exact ⟨t :: used, rfl, .cons hstep hrun⟩

/-- Dropped data in front of the first value belong to its datum. -/
theorem AreItems.exists_isDatum {ts : List Token} {vs : List Datum} :
    AreItems ts vs → ∀ v ∈ vs.head?, ∃ us ws, ts = us ++ ws ∧ IsDatum us v
  | .nil, v, hhead => by cases hhead
  | .cons hv _, v, hhead => by
      cases hhead
      exact ⟨_, _, rfl, hv⟩
  | .discard hmark hdropped hvs, v, hhead => by
      obtain ⟨us, ws, rfl, hv⟩ := hvs.exists_isDatum v hhead
      exact ⟨_, ws, by rw [List.cons_append, List.append_assoc], .discard hmark hdropped hv⟩

theorem readDatum_eq_ok_iff {ts rest : List Token} {v : Datum} :
    readDatum ts = ⟨.ok v, rest⟩ ↔ ∃ used, ts = used ++ rest ∧ IsDatum used v := by
  constructor
  · intro h
    obtain ⟨used, rfl, hrun⟩ := runs_of_readDatumFrom h
    obtain ⟨us, ws, rfl, hv⟩ := (areItems_iff_runs.2 hrun).exists_isDatum v rfl
    -- reading stops where the datum ends, so nothing is dropped behind it
    have hshort := hv.readDatum_append (ws ++ rest)
    rw [← List.append_assoc, h] at hshort
    have hws : ws = [] := List.self_eq_append_left.1 (Reading.mk.inj hshort).2
    refine ⟨us ++ ws, rfl, ?_⟩
    rwa [hws, List.append_nil]
  · rintro ⟨used, rfl, hv⟩
    exact hv.readDatum_append rest

/-- From any position, reading one datum gives a value and stops at a position exactly if the tokens
between the two positions derive a datum with that value; and reading all data succeeds exactly if
all tokens that are left derive items, with their values. -/
theorem reading_iff_derivation (tokens : List Token) (p : Nat) :
    (∀ v q, (readDatum (tokens.drop p) = ⟨.ok v, tokens.drop q⟩ ∧ q ≤ tokens.length) ↔
      (p ≤ q ∧ q ≤ tokens.length ∧ IsDatum (tokens.extract p q) v)) ∧
    ∀ vs, (readAll (tokens.drop p)).result = .ok vs ↔ AreItems (tokens.drop p) vs := by
  constructor
  · intro v q
    rw [readDatum_eq_ok_iff]
    constructor
    · rintro ⟨⟨used, hused, hv⟩, hq⟩
      have hpos : 0 < used.length := by
        obtain ⟨front, last, rfl, -⟩ := hv.delivers
        simp
      have hlength := congrArg List.length hused
      rw [List.length_append, List.length_drop, List.length_drop] at hlength
      have hcount : q - p = used.length := by omega
      refine ⟨by omega, hq, ?_⟩
      rwa [List.extract_eq_take_drop, hused, hcount, List.take_left]
    · rintro ⟨hle, hq, hv⟩
      have hsplit : tokens.drop p = tokens.extract p q ++ tokens.drop q := by
        have hdrop : (tokens.drop p).drop (q - p) = tokens.drop q := by
          rw [List.drop_drop, Nat.add_sub_cancel' hle]
        rw [List.extract_eq_take_drop, ← hdrop, List.take_append_drop]
      exact ⟨⟨_, hsplit, hv⟩, hq⟩
  · intro vs
    rw [readAll_eq_ok_iff, areItems_iff_runs]

end PageForms.Reader
