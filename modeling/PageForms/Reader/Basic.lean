import PageForms.Datum.Equality
import PageForms.Datum.Writer
import PageForms.Reader.Atom
import PageForms.Token.Lexer

/-!
# Reading data

Tokens are read one at a time against a stack of unfinished data: groups whose closing bracket is
still to come, marks that wait for the datum they wrap, and marks that drop the next datum.
`step` takes one token; a datum that is complete goes to the innermost unfinished one, or, if there
is none, is a result. A dropped datum contributes nothing wherever it stands. The equations by which
data, the items of a group and the data of a text are read by descent follow from this (see
`IsReader`).
-/

namespace PageForms.Reader

/-- The brackets of a group. -/
inductive Bracket where
  | seq (shape : Shape)
  | map
deriving DecidableEq, Repr

def opens? : TokenKind → Option Bracket
  | .openParen => some (.seq .form)
  | .openFn => some (.seq .fn)
  | .openBracket => some (.seq .vector)
  | .openSet => some (.seq .set)
  | .openBrace => some .map
  | _ => none

def Bracket.closer : Bracket → TokenKind
  | .seq .vector => .closeBracket
  | .seq .set => .closeBrace
  | .seq _ => .closeParen
  | .map => .closeBrace

/-- The head of the form that a mark makes of the datum behind it. -/
def wraps? : TokenKind → Option String
  | .quote => some "quote"
  | .deref => some "deref"
  | .varQuote => some "var"
  | _ => none

/-- A datum that is not complete yet. -/
inductive Frame where
  /-- A group opened by a token, with the items so far, the last one first. -/
  | group (opener : Token) (bracket : Bracket) (items : List Datum)
  /-- A form around the next datum. -/
  | wrap (head : String)
  /-- The next datum is dropped. -/
  | discard

/-- The entries of a map, paired from the items between its braces and added to those so far. -/
def pairUp (place : Text.Position) (es : Entries) : List Datum → Except Fault Entries
  | [] => .ok es
  | [_] => .error (.oddMap place)
  | k :: v :: rest =>
    if !k.hashable then do throw (.unusableKey place (← k.text?))
    else if (Entries.find? es k).isSome then do throw (.duplicateKey place (← k.text?))
    else pairUp place (es ++ [(k, v)]) rest

def buildMap (place : Text.Position) (items : List Datum) : Except Fault Datum :=
  if items.length % 2 = 1 then .error (.oddMap place)
  else .map <$> pairUp place [] items

def closeGroup (place : Text.Position) (bracket : Bracket) (items : List Datum) :
    Except Fault Datum :=
  match bracket with
  | .seq shape => .ok (.seq shape items)
  | .map => buildMap place items

/-- Hands a complete datum to the innermost unfinished one. With none left it is a result. -/
def supply : List Frame → Datum → List Frame × Option Datum
  | [], v => ([], some v)
  | .group opener bracket items :: stack, v => (.group opener bracket (v :: items) :: stack, none)
  | .wrap head :: stack, v => supply stack (.call head [v])
  | .discard :: stack, _ => (stack, none)

def atomValue? (t : Token) : Option (Except Fault Datum) :=
  match t.kind with
  | .string =>
    some ((fun cs => .str (String.ofList cs)) <$> Text.unquote ((t.text.toList.drop 1).dropLast))
  | .metadata | .regex | .character => some (.ok (.literal t.text))
  | .atom => some (readAtom t.text)
  | _ => none

def step (stack : List Frame) (t : Token) : Except Fault (List Frame × Option Datum) :=
  match opens? t.kind with
  | some bracket => .ok (.group t bracket [] :: stack, none)
  | none =>
    match wraps? t.kind with
    | some head => .ok (.wrap head :: stack, none)
    | none =>
      if t.kind = .discard then .ok (.discard :: stack, none)
      else
        match atomValue? t with
        | some value => supply stack <$> value
        | none =>
          match stack with
          | .group opener bracket items :: stack =>
            if t.kind = bracket.closer then
              supply stack <$> closeGroup opener.place bracket items.reverse
            else .error (.unexpectedToken t.text t.place)
          | _ => .error (.unexpectedToken t.text t.place)

/-- What is wrong when the tokens end before the data are complete. -/
def endFault : List Frame → Fault
  | .group opener _ _ :: _ => .unclosed opener.text opener.place
  | _ => .unexpectedEnd

/-- A result together with the tokens that are left when it is known. -/
structure Reading (α : Type) where
  result : Except Fault α
  rest : List Token

def readDatumFrom (stack : List Frame) : List Token → Reading Datum
  | [] => ⟨.error (endFault stack), []⟩
  | t :: ts =>
    match step stack t with
    | .error e => ⟨.error e, ts⟩
    | .ok (_, some v) => ⟨.ok v, ts⟩
    | .ok (stack, none) => readDatumFrom stack ts

def readAllFrom (stack : List Frame) : List Token → Reading (List Datum)
  | [] => if stack.isEmpty then ⟨.ok [], []⟩ else ⟨.error (endFault stack), []⟩
  | t :: ts =>
    match step stack t with
    | .error e => ⟨.error e, ts⟩
    | .ok (stack, none) => readAllFrom stack ts
    | .ok (stack, some v) =>
      let more := readAllFrom stack ts
      ⟨(v :: ·) <$> more.result, more.rest⟩

def consume : List Token → Reading Token
  | [] => ⟨.error .unexpectedEnd, []⟩
  | t :: ts => ⟨.ok t, ts⟩

def readDatum (ts : List Token) : Reading Datum :=
  readDatumFrom [] ts

def readAll (ts : List Token) : Reading (List Datum) :=
  readAllFrom [] ts

def read (text : String) : Except Fault (List Datum) := do
  (readAll (← Token.lex text)).result

def readOne (text : String) : Except Fault Datum := do
  match ← read text with
  | [v] => return v
  | vs => throw (.formCount vs.length)

end PageForms.Reader
