import PageForms.Datum.Layout
import PageForms.Page.Tag

/-!
# Namespaces and modules

A namespace declaration is a form `(ns name clause*)`; literals may stand before the name. The
module generated for a page is its declaration with the runtime environment imported, and an entry
point that hands the page's forms to the environment.
-/

namespace PageForms

def runtimeNamespace : String := "hlisp.env"

def entryPointName : String := "hlispinit"

def runtimePrimitives : List String :=
  ["text", "pr-node", "tag", "attrs", "branch?", "children", "make-node", "dom", "node-zip",
   "clone"]

def runtimeExports : Datum :=
  .vector [.symbol runtimeNamespace, .keyword "only",
    .vector ((Tag.names ++ runtimePrimitives).map .symbol)]

namespace Namespace

/-- The part of a declaration up to its name, the name and what follows it. -/
def split? (declaration : Datum) : Option (List Datum × String × List Datum) :=
  match declaration.role, declaration.formItems? with
  | .namespace, some (head :: rest) =>
    match rest.dropWhile Datum.isLiteral with
    | .symbol name :: clauses => some (head :: rest.takeWhile Datum.isLiteral, name, clauses)
    | _ => none
  | _, _ => none

def refuse {α : Type} (declaration : Datum) : Except Fault α := do
  throw (.notNamespace (Text.take 60 (← declaration.text?)))

def name (declaration : Datum) : Except Fault String :=
  match split? declaration with
  | some (_, name, _) => .ok name
  | none => refuse declaration

/-- Adds the runtime's exports to the first `:use` clause, if there is one. -/
def extendUse? : List Datum → Option (List Datum)
  | [] => none
  | clause :: clauses =>
    match clause.role, clause with
    | .use, .seq shape xs => some (.seq shape (xs ++ [runtimeExports]) :: clauses)
    | _, _ => (extendUse? clauses).map (clause :: ·)

/-- Adds a `:use` clause with the runtime's exports before the first clause. -/
def insertUse (clauses : List Datum) : List Datum :=
  clauses.takeWhile (fun v => !v.isForm) ++ .form [.keyword "use", runtimeExports] ::
    clauses.dropWhile (fun v => !v.isForm)

def importRuntime (declaration : Datum) : Except Fault Datum :=
  match split? declaration with
  | some (front, name, clauses) =>
    .ok (.form (front ++ .symbol name :: (extendUse? clauses).getD (insertUse clauses)))
  | none => refuse declaration

end Namespace

namespace Module

def entryPoint (content : List Datum) : Datum :=
  .call "defn" [.literal "^:export", .symbol entryPointName, .vector [],
    .call (runtimeNamespace ++ "/init") [.vector content]]

def assemble (declaration : Datum) (content : List Datum) : Except Fault (List Datum) := do
  return [← Namespace.importRuntime declaration, entryPoint content]

/-- The text of a module, each form laid out to the margin and followed by an empty line. -/
def text (forms : List Datum) (width : Int) : Except Fault String := do
  let blocks ← forms.mapM fun v => do return (← v.layOut? width 0) ++ "\n"
  return Text.joinWith "\n" blocks

end Module

end PageForms
