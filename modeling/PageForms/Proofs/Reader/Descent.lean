import PageForms.Proofs.Reader.Run

/-!
# Reading by descent

The reader keeps unfinished data on a stack. Seen from one of them, it works by descent: a datum is
read as if nothing else were unfinished, and what is unfinished goes on with its value and the
tokens behind it. The equations below say so for the datum itself, for the items of a group, and for
the data of a whole text. Tokens are looked at alike in the three places, so each equation is proved
for every `IsReader` at once; only a datum that is dropped is answered for by its place, which goes
on as if it had not been there.
-/

namespace PageForms.Reader

variable {α β γ : Type}

/-- Goes on with what was read and the tokens behind it. -/
def Reading.andThen (r : Reading α) (f : α → List Token → Reading β) : Reading β :=
  match r.result with
  | .ok a => f a r.rest
  | .error e => ⟨.error e, r.rest⟩

private theorem Reading.andThen_assoc (r : Reading α) (f : α → List Token → Reading β)
    (g : β → List Token → Reading γ) :
    (r.andThen f).andThen g = r.andThen fun a rest => (f a rest).andThen g := by
  obtain ⟨result, rest⟩ := r
  cases result <;> rfl

/-! ## Steps above other frames -/

private theorem supply_eq_some {stack inner : List Frame} {v w : Datum}
    (h : supply stack v = (inner, some w)) : inner = [] := by
  induction stack generalizing v with
  | nil =>
      cases h
      rfl
  | cons frame stack ih =>
      cases frame with
      | group opener bracket items => cases h
      | wrap head => exact ih h
      | discard => cases h

theorem step_eq_some {stack inner : List Frame} {t : Token} {v : Datum}
    (h : step stack t = .ok (inner, some v)) : inner = [] := by
  rcases step_cases h with ⟨_, _, _, hnone⟩ | ⟨_, _, _, hnone⟩ | ⟨_, _, hnone⟩ | ⟨w, _, heq⟩ |
    ⟨_, _, _, _, w, _, _, _, heq⟩
  · cases hnone
  · cases hnone
  · cases hnone
  · exact supply_eq_some heq.symm
  · exact supply_eq_some heq.symm

/-- The outcome of a step on the upper part of a stack, for the whole stack. -/
def onto (bottom : List Frame) : List Frame × Option Datum → List Frame × Option Datum
  | (stack, none) => (stack ++ bottom, none)
  | (_, some v) => supply bottom v

private theorem supply_append (inner bottom : List Frame) (v : Datum) :
    supply (inner ++ bottom) v = onto bottom (supply inner v) := by
  induction inner generalizing v with
  | nil => rfl
  | cons frame inner ih =>
      cases frame with
      | group opener bracket items => rfl
      | wrap head => exact ih (.call head [v])
      | discard => rfl

private theorem map_supply_append (inner bottom : List Frame) (value : Except Fault Datum) :
    supply (inner ++ bottom) <$> value = onto bottom <$> (supply inner <$> value) := by
  cases value with
  | error e => rfl
  | ok v => exact congrArg Except.ok (supply_append inner bottom v)

def ClosesTop (stack : List Frame) (t : Token) : Prop :=
  ∃ opener bracket items rest, stack = .group opener bracket items :: rest ∧
    t.kind = bracket.closer

/-- A closing bracket that nothing waits for is refused. -/
theorem step_of_stray {stack : List Frame} {t : Token} (hopens : opens? t.kind = none)
    (hwraps : wraps? t.kind = none) (hdiscard : t.kind ≠ .discard) (hatom : atomValue? t = none)
    (hcloses : ¬ClosesTop stack t) :
    step stack t = .error (.unexpectedToken t.text t.place) := by
  unfold step
  rw [hopens, hwraps]
  simp only
  rw [if_neg hdiscard, hatom]
  simp only
  split
  · next opener bracket items rest =>
    exact if_neg fun hcloser => hcloses ⟨opener, bracket, items, rest, rfl, hcloser⟩
  · rfl

def Frame.isGroup : Frame → Bool
  | .group .. => true
  | _ => false

/-- No closing bracket gets through to the lower part of a stack: the part has no group on top, or
the upper part ends in one. -/
def Sealed (inner bottom : List Frame) : Prop :=
  (∃ frame rest, bottom = frame :: rest ∧ frame.isGroup = false) ∨
    ∃ frame, inner.getLast? = some frame ∧ frame.isGroup = true

private theorem Sealed.mark_of_nil {bottom : List Frame} (h : Sealed [] bottom) :
    (∃ head rest, bottom = .wrap head :: rest) ∨ ∃ rest, bottom = .discard :: rest := by
  rcases h with ⟨frame, rest, rfl, hframe⟩ | ⟨frame, hlast, -⟩
  · cases frame with
    | group opener bracket items => cases hframe
    | wrap head => exact .inl ⟨head, rest, rfl⟩
    | discard => exact .inr ⟨rest, rfl⟩
  · cases hlast

private theorem Sealed.endFault_append {inner bottom : List Frame} (h : Sealed inner bottom) :
    endFault (inner ++ bottom) = endFault inner := by
  cases inner with
  | cons frame inner => cases frame <;> rfl
  | nil => rcases h.mark_of_nil with ⟨_, _, rfl⟩ | ⟨_, rfl⟩ <;> rfl

private theorem Sealed.closesTop_of_append {inner bottom : List Frame} (h : Sealed inner bottom)
    {t : Token} (hcloses : ClosesTop (inner ++ bottom) t) : ClosesTop inner t := by
  obtain ⟨opener, bracket, items, rest, heq, hkind⟩ := hcloses
  cases inner with
  | nil => rcases h.mark_of_nil with ⟨_, _, rfl⟩ | ⟨_, rfl⟩ <;> cases heq
  | cons frame inner =>
      cases heq
      exact ⟨opener, bracket, items, inner, rfl, hkind⟩

private theorem Sealed.step_append {inner bottom : List Frame} (h : Sealed inner bottom)
    (t : Token) : step (inner ++ bottom) t = onto bottom <$> step inner t := by
  cases hopens : opens? t.kind with
  | some bracket =>
      rw [step_of_opens? hopens, step_of_opens? hopens]
      rfl
  | none =>
      cases hwraps : wraps? t.kind with
      | some head =>
          rw [step_of_wraps? hwraps, step_of_wraps? hwraps]
          rfl
      | none =>
          by_cases hdiscard : t.kind = .discard
          · rw [step_of_discard hdiscard, step_of_discard hdiscard]
            rfl
          cases hatom : atomValue? t with
          | some value =>
              rw [step_of_atomValue? hatom, step_of_atomValue? hatom, map_supply_append]
          | none =>
              by_cases hcloses : ClosesTop inner t
              · obtain ⟨opener, bracket, items, rest, rfl, hkind⟩ := hcloses
                rw [List.cons_append, step_of_closer hkind, step_of_closer hkind,
                  map_supply_append]
              · have hnot := fun happend => hcloses (h.closesTop_of_append happend)
                rw [step_of_stray hopens hwraps hdiscard hatom hcloses,
                  step_of_stray hopens hwraps hdiscard hatom hnot]
                rfl

private theorem getLast?_supply {stack inner : List Frame} {v : Datum} {frame : Frame}
    (h : supply stack v = (inner, none)) (hlast : stack.getLast? = some frame)
    (hframe : frame.isGroup = true) :
    ∃ frame', inner.getLast? = some frame' ∧ frame'.isGroup = true := by
  induction stack generalizing v with
  | nil => cases hlast
  | cons top stack ih =>
      cases stack with
      | nil =>
          obtain rfl : top = frame := Option.some.inj hlast
          cases top with
          | group opener bracket items =>
              cases h
              exact ⟨_, rfl, rfl⟩
          | wrap head => cases hframe
          | discard => cases hframe
      | cons next stack =>
          rw [List.getLast?_cons_cons] at hlast
          cases top with
          | group opener bracket items =>
              cases h
              exact ⟨frame, by rwa [List.getLast?_cons_cons], hframe⟩
          | wrap head => exact ih h hlast
          | discard =>
              cases h
              exact ⟨frame, hlast, hframe⟩

theorem Sealed.step {inner inner' bottom : List Frame} {t : Token} (h : Sealed inner bottom)
    (hstep : Reader.step inner t = .ok (inner', none)) : Sealed inner' bottom := by
  rcases h with h | ⟨frame, hlast, hframe⟩
  · exact .inl h
  right
  have hpush : ∀ top, (top :: inner).getLast? = some frame := by
    intro top
    rw [List.getLast?_cons, hlast, Option.getD_some]
  rcases step_cases hstep with ⟨bracket, -, rfl, -⟩ | ⟨head, -, rfl, -⟩ | ⟨-, rfl, -⟩ |
    ⟨v, -, hv⟩ | ⟨opener, bracket, items, rest, v, rfl, -, -, hv⟩
  · exact ⟨frame, hpush _, hframe⟩
  · exact ⟨frame, hpush _, hframe⟩
  · exact ⟨frame, hpush _, hframe⟩
  · exact getLast?_supply hv.symm hlast hframe
  · cases rest with
    | nil => cases hv
    | cons next rest =>
        rw [List.getLast?_cons_cons] at hlast
        exact getLast?_supply hv.symm hlast hframe

/-! ## Readers -/

def goOn (read : List Frame → List Token → Reading α) (done : Datum → List Token → Reading α) :
    List Frame × Option Datum → List Token → Reading α
  | (stack, none), ts => read stack ts
  | (_, some v), ts => done v ts

/-- The function takes one token after the other, and `done` is what it does with a result. -/
structure IsReader (read : List Frame → List Token → Reading α)
    (done : Datum → List Token → Reading α) : Prop where
  nil : ∀ frame stack, read (frame :: stack) [] = ⟨.error (endFault (frame :: stack)), []⟩
  cons : ∀ stack t ts, read stack (t :: ts) =
    Reading.andThen ⟨step stack t, ts⟩ (goOn read done)

theorem isReader_readDatumFrom : IsReader readDatumFrom fun v ts => ⟨.ok v, ts⟩ where
  nil _ _ := rfl
  cons stack t ts := by
    rw [readDatumFrom]
    cases step stack t with
    | error e => rfl
    | ok next =>
        obtain ⟨stack', out⟩ := next
        cases out <;> rfl

theorem isReader_readAllFrom :
    IsReader readAllFrom fun v ts => (readAll ts).andThen fun vs rest => ⟨.ok (v :: vs), rest⟩ where
  nil _ _ := rfl
  cons stack t ts := by
    rw [readAllFrom]
    cases hstep : step stack t with
    | error e => rfl
    | ok next =>
        obtain ⟨stack', out⟩ := next
        cases out with
        | none => rfl
        | some v =>
            obtain rfl := step_eq_some hstep
            simp only [Reading.andThen, goOn, readAll]
            cases (readAllFrom [] ts).result <;> rfl

namespace IsReader

variable {read : List Frame → List Token → Reading α} {done : Datum → List Token → Reading α}

/-- Behind tokens that complete nothing, reading goes on from the stack they lead to. -/
theorem append (h : IsReader read done) {stack inner : List Frame} {ts : List Token}
    (hrun : Runs stack ts inner []) (rest : List Token) :
    read stack (ts ++ rest) = read inner rest := by
  generalize hnone : ([] : List Datum) = vs at hrun
  induction hrun with
  | nil => rfl
  | @cons stack t stack₁ out ts stack₂ vs hstep _ ih =>
      obtain ⟨hout, hvs⟩ := List.append_eq_nil_iff.1 hnone.symm
      rw [Option.toList_eq_nil_iff] at hout
      subst hout
      rw [List.cons_append, h.cons, hstep]
      exact ih hvs.symm

/-- The upper part of a stack is read by itself, and the lower part gets its value. -/
theorem descend (h : IsReader read done) {inner bottom : List Frame} (hsealed : Sealed inner bottom)
    (ts : List Token) :
    read (inner ++ bottom) ts =
      (readDatumFrom inner ts).andThen fun v => goOn read done (supply bottom v) := by
  induction ts generalizing inner with
  | nil =>
      have hne : inner ++ bottom ≠ [] := by
        cases inner with
        | nil => rcases hsealed.mark_of_nil with ⟨_, _, rfl⟩ | ⟨_, rfl⟩ <;> simp
        | cons frame inner => simp
      obtain ⟨frame, rest, heq⟩ := List.exists_cons_of_ne_nil hne
      rw [heq, h.nil, ← heq, hsealed.endFault_append]
      rfl
  | cons t ts ih =>
      rw [h.cons, hsealed.step_append, isReader_readDatumFrom.cons]
      cases hstep : step inner t with
      | error e => rfl
      | ok next =>
          obtain ⟨inner', out⟩ := next
          cases out with
          | none => exact ih (hsealed.step hstep)
          | some v => rfl

private theorem descend_mark (h : IsReader read done) {mark : Frame} (hmark : mark.isGroup = false)
    (stack : List Frame) (ts : List Token) :
    read (mark :: stack) ts =
      (readDatum ts).andThen fun v => goOn read done (supply (mark :: stack) v) := by
  have hsealed : Sealed [] (mark :: stack) := .inl ⟨mark, stack, rfl, hmark⟩
  exact h.descend hsealed ts

/-- Wherever a datum is dropped, it is read and reading goes on where it was. -/
theorem of_discard (h : IsReader read done) {t : Token} (ht : t.kind = .discard)
    (stack : List Frame) (ts : List Token) :
    read stack (t :: ts) = (readDatum ts).andThen fun _ => read stack := by
  rw [h.cons, step_of_discard ht]
  exact h.descend_mark rfl stack ts

end IsReader

/-! ## One datum -/

theorem readDatum_nil : readDatum [] = ⟨.error .unexpectedEnd, []⟩ := rfl

theorem readDatum_of_opens? {t : Token} {bracket : Bracket} (h : opens? t.kind = some bracket)
    (ts : List Token) : readDatum (t :: ts) = readDatumFrom [.group t bracket []] ts := by
  rw [readDatum, isReader_readDatumFrom.cons, step_of_opens? h]
  rfl

theorem readDatum_of_wraps? {t : Token} {head : String} (h : wraps? t.kind = some head)
    (ts : List Token) :
    readDatum (t :: ts) = (readDatum ts).andThen fun v rest => ⟨.ok (.call head [v]), rest⟩ := by
  rw [readDatum, isReader_readDatumFrom.cons, step_of_wraps? h]
  exact isReader_readDatumFrom.descend_mark rfl [] ts

theorem readDatum_of_discard {t : Token} (h : t.kind = .discard) (ts : List Token) :
    readDatum (t :: ts) = (readDatum ts).andThen fun _ => readDatum :=
  isReader_readDatumFrom.of_discard h [] ts

theorem readDatum_of_atomValue? {t : Token} {value : Except Fault Datum}
    (h : atomValue? t = some value) (ts : List Token) : readDatum (t :: ts) = ⟨value, ts⟩ := by
  rw [readDatum, isReader_readDatumFrom.cons, step_of_atomValue? h]
  cases value <;> rfl

private theorem not_closesTop_nil (t : Token) : ¬ClosesTop [] t := by
  rintro ⟨_, _, _, _, hnil, -⟩
  cases hnil

theorem readDatum_of_stray {t : Token} (hopens : opens? t.kind = none)
    (hwraps : wraps? t.kind = none) (hdiscard : t.kind ≠ .discard) (hatom : atomValue? t = none)
    (ts : List Token) : readDatum (t :: ts) = ⟨.error (.unexpectedToken t.text t.place), ts⟩ := by
  rw [readDatum, isReader_readDatumFrom.cons,
    step_of_stray hopens hwraps hdiscard hatom (not_closesTop_nil t)]
  rfl

/-! ## Items -/

/-- A token that neither drops a datum nor closes the innermost group is the first one of an
item. -/
theorem IsReader.of_item {read : List Frame → List Token → Reading α}
    {done : Datum → List Token → Reading α} (h : IsReader read done) {stack : List Frame}
    {t : Token} (hdiscard : t.kind ≠ .discard) (hcloses : ¬ClosesTop stack t) (ts : List Token) :
    read stack (t :: ts) =
      (readDatum (t :: ts)).andThen fun v => goOn read done (supply stack v) := by
  rw [h.cons]
  cases hopens : opens? t.kind with
  | some bracket =>
      have hsealed : Sealed [.group t bracket []] stack := .inr ⟨_, rfl, rfl⟩
      rw [step_of_opens? hopens, readDatum_of_opens? hopens]
      exact h.descend hsealed ts
  | none =>
      cases hwraps : wraps? t.kind with
      | some head =>
          rw [step_of_wraps? hwraps, readDatum_of_wraps? hwraps, Reading.andThen_assoc]
          exact h.descend_mark rfl stack ts
      | none =>
          cases hatom : atomValue? t with
          | some value =>
              rw [step_of_atomValue? hatom, readDatum_of_atomValue? hatom]
              cases value <;> rfl
          | none =>
              rw [step_of_stray hopens hwraps hdiscard hatom hcloses,
                readDatum_of_stray hopens hwraps hdiscard hatom]
              rfl

section Group

variable {opener t : Token} {bracket : Bracket}

theorem readGroup_nil (opener : Token) (bracket : Bracket) (items : List Datum) :
    readDatumFrom [.group opener bracket items] [] =
      ⟨.error (.unclosed opener.text opener.place), []⟩ :=
  rfl

theorem readGroup_of_closer (h : t.kind = bracket.closer) (items : List Datum) (ts : List Token) :
    readDatumFrom [.group opener bracket items] (t :: ts) =
      ⟨closeGroup opener.place bracket items.reverse, ts⟩ := by
  rw [isReader_readDatumFrom.cons, step_of_closer h]
  cases closeGroup opener.place bracket items.reverse <;> rfl

theorem readGroup_of_discard (h : t.kind = .discard) (items : List Datum) (ts : List Token) :
    readDatumFrom [.group opener bracket items] (t :: ts) =
      (readDatum ts).andThen fun _ => readDatumFrom [.group opener bracket items] :=
  isReader_readDatumFrom.of_discard h _ ts

theorem readGroup_of_item (hcloser : t.kind ≠ bracket.closer) (hdiscard : t.kind ≠ .discard)
    (items : List Datum) (ts : List Token) :
    readDatumFrom [.group opener bracket items] (t :: ts) =
      (readDatum (t :: ts)).andThen fun v =>
        readDatumFrom [.group opener bracket (v :: items)] := by
  apply isReader_readDatumFrom.of_item hdiscard
  rintro ⟨_, _, _, _, heq, hkind⟩
  cases heq
  exact hcloser hkind

end Group

/-! ## The data of a text -/

theorem readAll_nil : readAll [] = ⟨.ok [], []⟩ := rfl

theorem readAll_of_discard {t : Token} (h : t.kind = .discard) (ts : List Token) :
    readAll (t :: ts) = (readDatum ts).andThen fun _ => readAll :=
  isReader_readAllFrom.of_discard h [] ts

theorem readAll_of_item {t : Token} (h : t.kind ≠ .discard) (ts : List Token) :
    readAll (t :: ts) = (readDatum (t :: ts)).andThen fun v rest =>
      (readAll rest).andThen fun vs rest => ⟨.ok (v :: vs), rest⟩ :=
  isReader_readAllFrom.of_item h (not_closesTop_nil t) ts

end PageForms.Reader
