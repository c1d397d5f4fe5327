import Mathlib.Data.List.Induction
import Mathlib.Data.List.TakeWhile
import PageForms.Page.Stylesheet
import PageForms.Proofs.Datum.Writable

/-!
# The rules of a stylesheet

Read from left to right, a stylesheet is a sequence of rules: the longest run of selectors that
comes next and the longest run of maps right behind it. Maps in front of the first selector and
selectors behind the last map belong to no rule. The text of a stylesheet is made of the texts of
these rules, unless an integer in one of them is too long to be written, and a style form may have
one vector around all its items.
-/

namespace PageForms

open Datum

/-! ## The order of names -/

namespace Named

def lastValue (pairs : List (String × String)) (name : String) : String :=
  ((pairs.filter fun e => e.1 == name).getLast?.map Prod.snd).getD ""

/-- Every name once, in the order of the first occurrences, with the value it is given last. -/
def lastValues (pairs : List (String × String)) : List (String × String) :=
  (pairs.map Prod.fst).eraseDups.map fun name => (name, lastValue pairs name)

private theorem insert_map {α : Type} {names : List String} {name : String} (g : String → α)
    (value : α) (hmem : name ∈ names) (hnodup : names.Nodup) :
    insert (names.map fun n => (n, g n)) name value =
      names.map fun n => (n, if n = name then value else g n) := by
  induction names with
  | nil => cases hmem
  | cons n names ih =>
      obtain ⟨hn, hnodup⟩ := List.nodup_cons.1 hnodup
      rw [List.map_cons, List.map_cons, insert]
      by_cases h : n = name
      · subst h
        rw [if_pos rfl, if_pos rfl]
        congr 1
        apply List.map_congr_left
        intro m hm
        rw [if_neg (by rintro rfl; exact hn hm)]
      · have hmem' : name ∈ names := by
          rcases List.mem_cons.1 hmem with rfl | hmem
          · exact absurd rfl h
          · exact hmem
        rw [if_neg h, if_neg h, ih hmem' hnodup]

private theorem lastValue_append_singleton (pairs : List (String × String))
    (name value n : String) :
    lastValue (pairs ++ [(name, value)]) n = if n = name then value else lastValue pairs n := by
  unfold lastValue
  rw [List.filter_append]
  by_cases h : n = name
  · subst h
    simp
  · have hne : (name == n) = false := by simpa using fun h' => h h'.symm
    simp [h, hne]

private theorem eraseDups_append_singleton (names : List String) (name : String) :
    (names ++ [name]).eraseDups =
      if name ∈ names then names.eraseDups else names.eraseDups ++ [name] := by
  rw [List.eraseDups_append]
  by_cases h : name ∈ names <;> simp [List.removeAll, List.eraseDups_cons, h]

private theorem nodup_eraseDups (names : List String) : names.eraseDups.Nodup := by
  induction names using List.reverseRecOn with
  | nil => exact List.nodup_nil
  | append_singleton names name ih =>
      rw [eraseDups_append_singleton]
      split
      · exact ih
      · next h =>
        refine List.nodup_append.2 ⟨ih, by simp, ?_⟩
        intro a ha b hb
        rw [List.mem_singleton.1 hb]
        rintro rfl
        exact h (List.mem_eraseDups.1 ha)

private theorem ofList_eq_lastValues (pairs : List (String × String)) :
    ofList pairs = lastValues pairs := by
  induction pairs using List.reverseRecOn with
  | nil => rfl
  | append_singleton pairs pair ih =>
      obtain ⟨name, value⟩ := pair
      have hstep : ofList (pairs ++ [(name, value)]) = insert (lastValues pairs) name value := by
        rw [← ih, ofList, List.foldl_append]
        rfl
      have hvalue : (fun n => (n, lastValue (pairs ++ [(name, value)]) n)) =
          fun n => (n, if n = name then value else lastValue pairs n) := by
        funext n
        rw [lastValue_append_singleton]
      rw [hstep, lastValues, lastValues, hvalue, List.map_append, List.map_singleton,
        eraseDups_append_singleton]
      split
      · next hmem => exact insert_map _ value (List.mem_eraseDups.2 hmem) (nodup_eraseDups _)
      · next hnew =>
        rw [insert_of_not_mem, List.map_append, List.map_singleton, if_pos rfl]
        · congr 1
          apply List.map_congr_left
          intro n hn
          rw [if_neg]
          rintro rfl
          exact hnew (List.mem_eraseDups.1 hn)
        · simpa using hnew

end Named

/-! ## Runs -/

namespace Stylesheet

def isSelector (v : Datum) : Bool :=
  !v.isMap

/-- The rules of a stylesheet from left to right: the longest run of selectors and the longest run
of maps behind it, as long as there is one of each. -/
def rulesFrom (items : List Datum) : List (List Datum × List Datum) :=
  if _h : items.takeWhile isSelector = [] ∨ (items.dropWhile isSelector).takeWhile isMap = [] then
    []
  else
    (items.takeWhile isSelector, (items.dropWhile isSelector).takeWhile isMap) ::
      rulesFrom ((items.dropWhile isSelector).dropWhile isMap)
termination_by items.length
decreasing_by
  have hselectors := List.length_pos_iff.2 (not_or.1 _h).1
  have hitems : (items.takeWhile isSelector ++ items.dropWhile isSelector).length =
      items.length := by
    rw [List.takeWhile_append_dropWhile]
  have hbehind := (List.dropWhile_sublist isMap (l := items.dropWhile isSelector)).length_le
  rw [List.length_append] at hitems
  omega

/-- The first run takes everything that is of one kind with the first item. -/
theorem runs_cons (x : Datum) (xs : List Datum) :
    runs (x :: xs) = (x :: xs.takeWhile fun y => y.isMap == x.isMap) ::
      runs (xs.dropWhile fun y => y.isMap == x.isMap) := by
  induction xs generalizing x with
  | nil => rfl
  | cons y ys ih =>
      rw [runs, ih y]
      simp only
      by_cases h : x.isMap = y.isMap
      · rw [if_pos (by simp [h]), List.takeWhile_cons_of_pos (by simp [h]),
          List.dropWhile_cons_of_pos (by simp [h]), h]
      · have hne : ¬((y.isMap == x.isMap) = true) := by simpa using fun h' => h h'.symm
        rw [if_neg (by simpa using h), List.takeWhile_cons, List.dropWhile_cons, if_neg hne,
          if_neg hne, ih y]

private theorem runs_of_map {x : Datum} (h : x.isMap = true) (xs : List Datum) :
    runs (x :: xs) = (x :: xs).takeWhile isMap :: runs ((x :: xs).dropWhile isMap) := by
  have hkind : (fun y : Datum => y.isMap == x.isMap) = isMap := by
    funext y
    simp [h]
  rw [runs_cons, hkind, List.takeWhile_cons_of_pos h, List.dropWhile_cons_of_pos h]

private theorem runs_of_selector {x : Datum} (h : isSelector x = true) (xs : List Datum) :
    runs (x :: xs) = (x :: xs).takeWhile isSelector :: runs ((x :: xs).dropWhile isSelector) := by
  have hkind : (fun y : Datum => y.isMap == x.isMap) = isSelector := by
    funext y
    simp_all [isSelector]
  rw [runs_cons, hkind, List.takeWhile_cons_of_pos h, List.dropWhile_cons_of_pos h]

/-- What is left behind a run starts with a value of the other kind. -/
theorem dropWhile_cases (q : Datum → Bool) (items : List Datum) :
    items.dropWhile q = [] ∨ ∃ x xs, items.dropWhile q = x :: xs ∧ q x = false := by
  cases h : items.dropWhile q with
  | nil => exact .inl rfl
  | cons x xs =>
      have hx := List.head_dropWhile_not q (l := items) (by simp [h])
      simp only [h, List.head_cons] at hx
      exact .inr ⟨x, xs, rfl, hx⟩

private theorem isProperties_maps {x : Datum} (h : x.isMap = true) (xs : List Datum) :
    isProperties ((x :: xs).takeWhile isMap) = true := by
  simp [isProperties, h]

private theorem isProperties_selectors {x : Datum} (h : x.isMap = false) (xs : List Datum) :
    isProperties ((x :: xs).takeWhile isSelector) = false := by
  simp [isProperties, isSelector, h]

/-- The runs of selectors and the runs of maps alternate, so that pairing them in order pairs
neighbours. -/
theorem zip_runs {items : List Datum} (h : items = [] ∨ ∃ x xs, items = x :: xs ∧ x.isMap = false) :
    ((runs items).filter fun run => !isProperties run).zip ((runs items).filter isProperties) =
      rulesFrom items := by
  fun_induction rulesFrom items with
  | case1 items hnone =>
      rcases h with rfl | ⟨x, xs, rfl, hx⟩
      · rfl
      · have hselector : isSelector x = true := by simp [isSelector, hx]
        have hmaps := hnone.resolve_left (by simp [hselector])
        -- the only run is one of selectors
        have hbehind : (x :: xs).dropWhile isSelector = [] := by
          rcases dropWhile_cases isSelector (x :: xs) with hnil | ⟨y, ys, hy, hkind⟩
          · exact hnil
          · rw [hy, List.takeWhile_cons_of_pos (by simpa [isSelector] using hkind)] at hmaps
            cases hmaps
        rw [runs_of_selector hselector, hbehind, runs]
        simp [hselector, isProperties, hx]
  | case2 items hsome ih =>
      rcases h with rfl | ⟨x, xs, rfl, hx⟩
      · simp at hsome
      · have hselector : isSelector x = true := by simp [isSelector, hx]
        rcases dropWhile_cases isSelector (x :: xs) with hnil | ⟨y, ys, hy, hkind⟩
        · simp [hnil] at hsome
        · have hmap : y.isMap = true := by simpa [isSelector] using hkind
          have hrest : ((y :: ys).dropWhile isMap) = [] ∨
              ∃ z zs, (y :: ys).dropWhile isMap = z :: zs ∧ z.isMap = false :=
            dropWhile_cases isMap (y :: ys)
          rw [hy] at ih
          rw [runs_of_selector hselector, hy, runs_of_map hmap, ← ih hrest]
          simp [isProperties_selectors hx, isProperties_maps hmap]

/-- The rules are found by reading from left to right. -/
theorem rules_eq_rulesFrom (items : List Datum) :
    rules items = rulesFrom (items.dropWhile isMap) := by
  rw [← zip_runs (dropWhile_cases isMap items)]
  cases items with
  | nil => rfl
  | cons x xs =>
      cases hx : x.isMap with
      | true =>
          unfold rules
          rw [runs_of_map hx]
          simp [isProperties_maps hx]
      | false =>
          have hselector : isSelector x = true := by simp [isSelector, hx]
          unfold rules
          rw [List.dropWhile_cons_of_neg (by simp [hx]), runs_of_selector hselector]
          simp [isProperties_selectors hx]

private theorem forall_mem_rulesFrom {items : List Datum} {rule : List Datum × List Datum}
    (h : rule ∈ rulesFrom items) : ∀ v ∈ rule.2, v.isMap = true := by
  fun_induction rulesFrom items with
  | case1 => cases h
  | case2 items _ ih =>
      rcases List.mem_cons.1 h with rfl | h
      · exact fun v hv => List.mem_takeWhile_imp hv
      · exact ih h

/-! ## Texts -/

def ifAllWritable {α : Type} (vs : List Datum) (a : α) : Except Fault α :=
  if vs.all writable then .ok a else .error .unwritableInteger

private theorem ifAllWritable_congr {α : Type} {vs ws : List Datum}
    (h : vs.all writable = ws.all writable) (a : α) : ifAllWritable vs a = ifAllWritable ws a := by
  rw [ifAllWritable, ifAllWritable, h]

private theorem ifAllWritable_bind {α β : Type} (vs ws : List Datum) (a : α) (b : β)
    {f : α → Except Fault β} (h : f a = ifAllWritable ws b) :
    ifAllWritable vs a >>= f = ifAllWritable (vs ++ ws) b := by
  unfold ifAllWritable at h ⊢
  rw [List.all_append]
  cases vs.all writable with
  | true => exact h
  | false => rfl

private theorem ifAllWritable_return {α β : Type} (vs : List Datum) (a : α) (g : α → β) :
    (do return g (← ifAllWritable vs a)) = ifAllWritable vs (g a) := by
  unfold ifAllWritable
  cases vs.all writable <;> rfl

private theorem mapM_ifAllWritable {α β : Type} {f : α → Except Fault β} {parts : α → List Datum}
    {g : α → β} {xs : List α} (h : ∀ x ∈ xs, f x = ifAllWritable (parts x) (g x)) :
    xs.mapM f = ifAllWritable (xs.flatMap parts) (xs.map g) := by
  induction xs with
  | nil => rfl
  | cons x xs ih =>
      rw [List.mapM_cons, h x (by simp), ih fun y hy => h y (by simp [hy]), List.flatMap_cons]
      exact ifAllWritable_bind _ _ _ _ (ifAllWritable_return _ _ (g x :: ·))

private theorem label?_eq (v : Datum) : v.label? = ifAllWritable [v] v.label := by
  simp [label?, ifWritable, ifAllWritable]

def pathNames : Datum → List String
  | .vector xs => xs.map label
  | v => [v.label]

/-- The paths that a selector stands for: a vector of vectors is flattened one level. -/
def selectorPaths : Datum → List (List String)
  | .vector (x :: xs) =>
    if ∀ y ∈ x :: xs, y.isVector = true then (x :: xs).map pathNames
    else [pathNames (.vector (x :: xs))]
  | v => [pathNames v]

def declarations (maps : List Datum) : List (String × String) :=
  (propertiesIn maps).map fun e => (e.1.label, e.2.label)

def ruleSheet (selectors properties : List Datum) : String :=
  Text.joinWith ",\n" ((selectors.flatMap selectorPaths).map (Text.joinWith " ")) ++
    (" \x7b\n" ++ Text.concat ((Named.lastValues (declarations properties)).map fun e =>
      "  " ++ e.1 ++ ": " ++ e.2 ++ ";\n") ++ "\x7d\n")

private theorem mapM_label?_eq (vs : List Datum) :
    vs.mapM label? = ifAllWritable vs (vs.map label) := by
  rw [mapM_ifAllWritable fun v _ => label?_eq v, List.flatMap_singleton']

private theorem pathText_eq (path : Datum) :
    pathText path = ifAllWritable [path] (Text.joinWith " " (pathNames path)) := by
  unfold pathText
  simp only [mapM_label?_eq]
  rw [ifAllWritable_return]
  split
  · apply ifAllWritable_congr
    simp [writable, allWritable_eq_all]
  · next hother =>
    rw [pathNames, List.map_singleton]
    exact hother

private theorem all_writable_paths (v : Datum) : (paths v).all writable = v.writable := by
  unfold paths
  split
  · split
    · rw [writable, allWritable_eq_all]
    · simp
  · simp

private theorem map_pathNames_paths (v : Datum) : (paths v).map pathNames = selectorPaths v := by
  unfold paths
  split
  · rw [selectorPaths]
    split
    · next hall => rw [if_pos (List.all_eq_true.1 hall)]
    · next hall =>
      rw [if_neg fun h => hall (List.all_eq_true.2 h)]
      rfl
  · next hother =>
    rw [selectorPaths, List.map_singleton]
    exact hother

private theorem selectorText_eq (run : List Datum) :
    selectorText run = ifAllWritable run
      (Text.joinWith ",\n" ((run.flatMap selectorPaths).map (Text.joinWith " "))) := by
  unfold selectorText
  rw [mapM_ifAllWritable fun path _ => pathText_eq path, ifAllWritable_return]
  have hpaths : run.flatMap selectorPaths = (run.flatMap paths).map pathNames := by
    rw [List.map_flatMap]
    simp only [map_pathNames_paths]
  rw [hpaths, List.map_map]
  apply ifAllWritable_congr
  rw [List.flatMap_singleton', List.all_flatMap]
  simp only [all_writable_paths]

private theorem all_writable_maps {run : List Datum} (h : ∀ v ∈ run, v.isMap = true) :
    ((propertiesIn run).flatMap fun e => [e.1, e.2]).all writable = run.all writable := by
  unfold propertiesIn
  induction run with
  | nil => rfl
  | cons v run ih =>
      have hrest := ih fun w hw => h w (by simp [hw])
      have hv := h v (by simp)
      cases v with
      | map es =>
          rw [List.flatMap_cons, List.flatMap_append, List.all_append, hrest, List.all_cons,
            writable, entriesWritable_eq_all, List.all_flatMap]
          simp
      | _ => cases hv

private theorem propertyText_eq {run : List Datum} (h : ∀ v ∈ run, v.isMap = true) :
    propertyText run = ifAllWritable run (" \x7b\n" ++ Text.concat
      ((Named.lastValues (declarations run)).map fun e => "  " ++ e.1 ++ ": " ++ e.2 ++ ";\n") ++
        "\x7d\n") := by
  have hpair : ∀ e ∈ propertiesIn run, (do return (← e.1.label?, ← e.2.label?)) =
      ifAllWritable [e.1, e.2] (e.1.label, e.2.label) := by
    intro e _
    rw [label?_eq, label?_eq]
    exact ifAllWritable_bind [e.1] [e.2] _ _ (ifAllWritable_return [e.2] _ (Prod.mk e.1.label))
  unfold propertyText
  rw [mapM_ifAllWritable hpair, ifAllWritable_congr (all_writable_maps h)]
  rw [← Named.ofList_eq_lastValues]
  exact ifAllWritable_return _ _ _

private theorem ruleText_eq {selectors properties : List Datum}
    (h : ∀ v ∈ properties, v.isMap = true) :
    ruleText selectors properties =
      ifAllWritable (selectors ++ properties) (ruleSheet selectors properties) := by
  unfold ruleText
  rw [selectorText_eq, propertyText_eq h]
  exact ifAllWritable_bind _ _ _ _ (ifAllWritable_return _ _ _)

/-- The text of a stylesheet: its rules from left to right, with a line between them. -/
def sheet (items : List Datum) : String :=
  Text.joinWith "\n" ((rulesFrom (items.dropWhile isMap)).map fun rule => ruleSheet rule.1 rule.2)

theorem text_eq (items : List Datum) :
    text items =
      ifAllWritable ((rulesFrom (items.dropWhile isMap)).flatMap fun rule => rule.1 ++ rule.2)
        (sheet items) := by
  unfold text
  rw [rules_eq_rulesFrom,
    mapM_ifAllWritable fun rule hrule => ruleText_eq (forall_mem_rulesFrom hrule),
    ifAllWritable_return]
  rfl

/-! ## Style forms -/

def compiledForm (css : String) : Datum :=
  .call "style" [.map [(.keyword "type", .str "text/css")], .str css]

theorem compileForm_of_vector {head : Datum} {items first rest : List Datum} (shape : Shape)
    (h : bodyOf items = .vector first :: rest) :
    compileForm (.seq shape (head :: items)) = compiledForm <$> text (.vector first :: rest) := by
  unfold compileForm
  rw [dropItems, ok_bind, Datum.items, ok_bind]
  simp only [List.drop_succ_cons, List.drop_zero, h]
  cases text (.vector first :: rest) <;> rfl

theorem compileForm_of_other {head : Datum} {items : List Datum} (shape : Shape)
    (h : ∀ first rest, bodyOf items ≠ .vector first :: rest) :
    compileForm (.seq shape (head :: items)) = .ok (.seq shape (head :: items)) := by
  unfold compileForm
  rw [dropItems, ok_bind, Datum.items, ok_bind]
  simp only [List.drop_succ_cons, List.drop_zero]
  rfl

private theorem bodyOf_of_any_isMap {first rest : List Datum}
    (h : (Datum.vector first :: rest).any isMap = true) :
    bodyOf (.vector first :: rest) = .vector first :: rest := by
  cases rest with
  | nil => simp [isMap] at h
  | cons x rest => rfl

private theorem bodyOf_wrapped {items : List Datum} (h : items.any isMap = true) :
    bodyOf [.vector items] = items := by
  simp [bodyOf, h]

/-- The text of a style is its sheet, unless one of its rules has an integer that cannot be written.
A style whose items start with a vector and have properties comes to the same with these items in
one vector. -/
theorem text_eq_sheet (items : List Datum) :
    text items =
      ifAllWritable ((rulesFrom (items.dropWhile isMap)).flatMap fun rule => rule.1 ++ rule.2)
        (sheet items) ∧
    ∀ first rest, items = .vector first :: rest → items.any isMap = true → ∀ shape,
      compileForm (.seq shape (.symbol "style" :: items)) =
        compileForm (.seq shape [.symbol "style", .vector items]) ∧
      compileForm (.seq shape (.symbol "style" :: items)) = compiledForm <$> text items := by
  refine ⟨text_eq items, ?_⟩
  rintro first rest rfl hmap shape
  rw [compileForm_of_vector shape (bodyOf_of_any_isMap hmap),
    compileForm_of_vector shape (bodyOf_wrapped hmap)]
  exact ⟨rfl, rfl⟩

/-- A vector of vectors among the selectors, a property that is set twice and a last selector
without properties. -/
theorem text_eq_sheet_wrapped :
    ∃ items : List Datum,
      items = [.vector [.vector [.keyword "a", .keyword "b"], .vector [.keyword "c"]], .symbol "d",
        .map [(.keyword "x", .int 1), (.keyword "y", .int 2)], .map [(.str "x", .bool true)],
        .vector [.keyword "e"]] ∧ items.any isMap = true ∧
      sheet items = "a b,\nc,\nd \x7b\n  x: true;\n  y: 2;\n\x7d\n" ∧
      compileForm (.call "style" items) = .ok (compiledForm (sheet items)) ∧
      compileForm (.call "style" [.vector items]) = .ok (compiledForm (sheet items)) := by
  obtain ⟨items, hitems⟩ : ∃ items : List Datum,
    items = [.vector [.vector [.keyword "a", .keyword "b"], .vector [.keyword "c"]], .symbol "d",
      .map [(.keyword "x", .int 1), (.keyword "y", .int 2)], .map [(.str "x", .bool true)],
      .vector [.keyword "e"]] := ⟨_, rfl⟩
  have hmap : items.any isMap = true := by
    rw [hitems]
    rfl
  have htext : text items = .ok "a b,\nc,\nd \x7b\n  x: true;\n  y: 2;\n\x7d\n" := by
    rw [hitems]
    decide +kernel
  obtain ⟨hsheet, hforms⟩ := text_eq_sheet items
  obtain ⟨hsame, hcompiled⟩ := hforms _ _ hitems hmap .form
  have heq : sheet items = "a b,\nc,\nd \x7b\n  x: true;\n  y: 2;\n\x7d\n" := by
    rw [htext, ifAllWritable] at hsheet
    split at hsheet
    · exact (Except.ok.inj hsheet).symm
    · cases hsheet
  have hform : compileForm (.call "style" items) = .ok (compiledForm (sheet items)) := by
    rw [call, hcompiled, htext, heq]
    rfl
  exact ⟨items, hitems, hmap, heq, hform, hsame.symm.trans hform⟩

/-- A value that is too long to be written is refused even where a later one takes its place. -/
theorem overridden_long_value_refused :
    ∃ items : List Datum,
      items = [.vector [.keyword "a"], .map [(.keyword "b", .int (Int.ofNat (Nat.pow 16 3572)))],
        .map [(.keyword "b", .int 1)]] ∧
      sheet items = "a \x7b\n  b: 1;\n\x7d\n" ∧ text items = .error .unwritableInteger := by
  refine ⟨_, rfl, ?_, by decide +kernel⟩
  unfold sheet rulesFrom
  unfold rulesFrom
  decide +kernel

end Stylesheet

end PageForms
