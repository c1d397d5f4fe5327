import PageForms.Datum.Equality
import PageForms.Datum.Writer
import PageForms.Proofs.Token.Spelling

/-!
# The lexemes of a value

`Datum.lexemes` is what a value consists of when it is written: its brackets and the texts of its
atoms, in order. `Datum.WellFormed` collects what holds of every value that was read, with a
parameter for what is known about atoms. Writing a well-formed value whose atoms are single lexemes
spells exactly its lexemes.
-/

namespace PageForms

open Token (Lexeme IsLexeme IsBracket Spells)

def Shape.isBracketed : Shape → Bool
  | .form | .fn | .vector | .set => true
  | .list | .tuple => false

def Shape.openKind : Shape → TokenKind
  | .fn => .openFn
  | .vector => .openBracket
  | .set => .openSet
  | .form | .list | .tuple => .openParen

def Shape.closeKind : Shape → TokenKind
  | .vector => .closeBracket
  | .set => .closeBrace
  | .form | .fn | .list | .tuple => .closeParen

namespace Datum

def literalKind (text : String) : TokenKind :=
  match text.toList with
  | '#' :: _ => .regex
  | '\\' :: _ => .character
  | '^' :: _ => .metadata
  | _ => .atom

def atomKind : Datum → TokenKind
  | .str _ => .string
  | .literal text => literalKind text
  | _ => .atom

mutual

def lexemes : Datum → List Lexeme
  | .seq shape xs =>
    (shape.openKind, shape.opener) :: (itemLexemes xs ++ [(shape.closeKind, shape.closer)])
  | .map es => (.openBrace, "\x7b") :: (entryLexemes es ++ [(.closeBrace, "\x7d")])
  | v => [(v.atomKind, v.write)]

def itemLexemes : List Datum → List Lexeme
  | [] => []
  | x :: xs => lexemes x ++ itemLexemes xs

def entryLexemes : List (Datum × Datum) → List Lexeme
  | [] => []
  | (k, v) :: es => lexemes k ++ lexemes v ++ entryLexemes es

end

theorem itemLexemes_eq_flatMap (xs : List Datum) : itemLexemes xs = xs.flatMap lexemes := by
  induction xs with
  | nil => rfl
  | cons x xs ih => rw [itemLexemes, ih, List.flatMap_cons]

theorem entryLexemes_eq_flatMap (es : Entries) :
    entryLexemes es = es.flatMap fun e => e.1.lexemes ++ e.2.lexemes := by
  induction es with
  | nil => rfl
  | cons e es ih => rw [entryLexemes, ih, List.flatMap_cons]

theorem lexemes_of_atom {v : Datum} (h : v.isCollection = false) :
    v.lexemes = [(v.atomKind, v.write)] := by
  cases v with
  | seq shape xs => cases h
  | map es => cases h
  | _ => rfl

theorem writeEntries_eq_map (es : Entries) :
    writeEntries es = es.map fun e => e.1.write ++ " " ++ e.2.write := by
  induction es with
  | nil => rfl
  | cons e es ih => rw [writeEntries, ih, List.map_cons]

end Datum

/-- The keys can be the keys of one map: each is usable and none equals an earlier one. -/
structure Entries.Distinct (es : Entries) : Prop where
  hashable : ∀ e ∈ es, e.1.hashable = true
  distinct : es.Pairwise fun e f => f.1.equal e.1 = false

namespace Datum

/-- Every atom of the value satisfies `p`, every sequence has brackets of its own, and the keys of
every map are usable and distinct. -/
inductive WellFormed (p : Datum → Prop) : Datum → Prop
  | atom {v} (hv : v.isCollection = false) (hp : p v) : WellFormed p v
  | seq {shape xs} (hshape : shape.isBracketed = true) (hxs : ∀ x ∈ xs, WellFormed p x) :
      WellFormed p (.seq shape xs)
  | map {es} (hkeys : ∀ e ∈ es, WellFormed p e.1) (hvalues : ∀ e ∈ es, WellFormed p e.2)
      (hes : Entries.Distinct es) : WellFormed p (.map es)

theorem WellFormed.imp {p q : Datum → Prop} {v : Datum} (h : WellFormed p v)
    (hpq : ∀ a, a.isCollection = false → p a → q a) : WellFormed q v := by
  induction h with
  | atom hv hp => exact .atom hv (hpq _ hv hp)
  | seq hshape _ ih => exact .seq hshape ih
  | map _ _ hes ihkeys ihvalues => exact .map ihkeys ihvalues hes

theorem wellFormed_seq_iff {p : Datum → Prop} {shape : Shape} {xs : List Datum} :
    (seq shape xs).WellFormed p ↔ shape.isBracketed = true ∧ ∀ x ∈ xs, x.WellFormed p := by
  constructor
  · intro h
    cases h with
    | atom hv _ => cases hv
    | seq hshape hxs => exact ⟨hshape, hxs⟩
  · rintro ⟨hshape, hxs⟩
    exact .seq hshape hxs

theorem wellFormed_atom_iff {p : Datum → Prop} {v : Datum} (hv : v.isCollection = false) :
    v.WellFormed p ↔ p v := by
  constructor
  · intro h
    cases h with
    | atom _ hp => exact hp
    | seq => cases hv
    | map => cases hv
  · exact .atom hv

/-- The atom is written as a single lexeme. -/
def IsSpelled (v : Datum) : Prop :=
  IsLexeme v.atomKind v.write

end Datum

/-! ## Writing spells the lexemes -/

theorem Shape.isBracket_opener (shape : Shape) : IsBracket shape.openKind shape.opener := by
  cases shape with
  | fn | set => exact Token.isBracket_pair fun _ => rfl
  | form | vector | list | tuple => exact Token.isBracket_single fun _ => rfl

theorem Shape.isBracket_closer (shape : Shape) : IsBracket shape.closeKind shape.closer := by
  cases shape <;> exact Token.isBracket_single fun _ => rfl

theorem Shape.ended_closer (shape : Shape) : Token.Ended shape.closer.toList := by
  cases shape <;> exact Token.ended_cons (by decide)

theorem isBracket_openBrace : IsBracket .openBrace "\x7b" :=
  Token.isBracket_single fun _ => rfl

theorem isBracket_closeBrace : IsBracket .closeBrace "\x7d" :=
  Token.isBracket_single fun _ => rfl

theorem ended_closeBrace : Token.Ended "\x7d".toList :=
  Token.ended_cons (by decide)

namespace Datum

/-- A well-formed value is written as its lexemes. -/
theorem WellFormed.spells_write {v : Datum} (h : WellFormed IsSpelled v) :
    Spells v.write v.lexemes := by
  induction h with
  | @atom v hv hp =>
      rw [lexemes_of_atom hv]
      exact IsLexeme.spells hp
  | @seq shape xs hshape _ ih =>
      rw [write, lexemes, itemLexemes_eq_flatMap, writeItems_eq_map]
      apply Spells.enclose shape.isBracket_opener _ shape.isBracket_closer shape.ended_closer
      exact Token.spells_joinWith Token.isGap_space ih
  | @map es _ _ hes ihkeys ihvalues =>
      rw [write, lexemes, entryLexemes_eq_flatMap, writeEntries_eq_map]
      apply Spells.enclose isBracket_openBrace _ isBracket_closeBrace ended_closeBrace
      apply Token.spells_joinWith Token.isGap_comma_space
      intro e he
      exact (ihkeys e he).append_gap Token.isGap_space (ihvalues e he)

end Datum

end PageForms
