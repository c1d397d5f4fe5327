import PageForms.Page.Canonical
import PageForms.Page.Convert
import PageForms.Page.Namespace
import PageForms.Page.Stylesheet

/-!
# Compiling pages

A page is a document with one `html` form that has one `body`. The first child of the body declares
the namespace of the page's module; the other children are both the content of the page and the
forms of the module's entry point. In the page, styles are compiled, every element gets an
attribute map and a known tag, and scripts that load and start the module end the body.

`liftSource` makes such a page of a namespace source, whose last form is the `html` form: the
declaration and the other forms move into its body.
-/

namespace PageForms

/-- The two texts a page is compiled to. -/
structure Bundle where
  markup : String
  code : String
deriving DecidableEq, Repr

/-- How a page is compiled. -/
structure CompileOptions where
  /-- Where the page loads its module from. -/
  jsUri : String
  /-- Where the page loads the base script from, if it needs one. -/
  baseUri : Option String
  /-- The right margin of the module. -/
  width : Int
  doctype : Option String
deriving DecidableEq, Repr

namespace Page

def findUnique (values : List Datum) (role : Role) (place : String) : Except Fault Datum :=
  match values.filter (fun v => v.role == role) with
  | [] => .error (.noneFound role.name place)
  | [v] => .ok v
  | vs => .error (.manyFound role.name place vs.length)

/-- The `html` form of a document: the document itself, or the only one among its items. -/
def findHtml (document : Datum) : Except Fault Datum := do
  if document.role == .html then return document
  findUnique (← document.items) .html "the document"

def bodyOf (html : Datum) : Except Fault Datum := do
  findUnique (← html.items).tail .body "<html>"

def findBody (document : Datum) : Except Fault Datum := do
  bodyOf (← findHtml document)

/-- The form with the items of a role replaced. If there is one such item, it is replaced as the
node at its place. -/
def replaceRole (role : Role) (replacement : Datum) : Datum → Datum
  | .seq shape xs => .seq shape (xs.map fun v => if v.role == role then replacement else v)
  | v => v

/-! ## Scripts -/

def scriptType : String := "text/javascript"

def clearBody : String :=
  Text.joinWith "\n"
    ["(function(node) \x7b",
     "  while (node.hasChildNodes())",
     "    node.removeChild(node.lastChild);",
     "\x7d)(document.body);"]

def inlineScript (body : String) : Datum :=
  .call "script" [.map [(.keyword "type", .str scriptType)], .str body]

def loadedScript (uri : String) : Datum :=
  .call "script" [.map [(.keyword "type", .str scriptType), (.keyword "src", .str uri)]]

/-- A namespace name as the path of an object: dashes become underscores. -/
def objectPath (name : String) : String :=
  Text.substitute (fun c => if c = '-' then "_" else String.ofList [c]) name

def bootScripts (path : String) (jsUri : String) (baseUri : Option String) : List Datum :=
  let start := inlineScript (path ++ "." ++ entryPointName ++ "();")
  match baseUri with
  | none | some "" =>
    [inlineScript clearBody, inlineScript "var CLOSURE_NO_DEPS = true;", loadedScript jsUri, start]
  | some base =>
    [inlineScript clearBody, loadedScript base, loadedScript jsUri,
     inlineScript ("goog.require('" ++ path ++ "');"), start]

/-! ## Compiling -/

/-- The parts of a page that is ready to be rendered. -/
structure Plan where
  document : Datum
  html : Datum
  /-- The attributes of the body. -/
  attributes : Entries
  /-- The name of the namespace. -/
  name : String
  /-- The forms of the module. -/
  code : List Datum
  /-- The children of the body behind the namespace declaration. -/
  content : List Datum

def plan (document : Datum) : Except Fault Plan := do
  let html ← findHtml document
  let body ← bodyOf html
  let items ← body.items
  match Datum.childrenIn items with
  | [] => throw .bodyWithoutNamespace
  | declaration :: content =>
    if declaration.role == .namespace then
      return {
        document, html, content,
        attributes := (Datum.attributesIn items).getD [],
        code := ← Module.assemble declaration content,
        name := ← Namespace.name declaration }
    else throw .bodyWithoutNamespace

def toPageForm (v : Datum) : Except Fault Datum := do
  return (← Stylesheet.compileAll v).withAttributes.withKnownTags

def Plan.compiledHtml (p : Plan) (options : CompileOptions) : Except Fault Datum := do
  let content ← p.content.mapM toPageForm
  let scripts := bootScripts (objectPath p.name) options.jsUri options.baseUri
  let body := Datum.call "body" (.map p.attributes :: content ++ scripts)
  match ← p.html.items with
  | [] => return .form []
  | head :: kids =>
    return .form (head :: (← kids.mapM fun kid =>
      if kid.role == .body then pure body else toPageForm kid))

/-- The forms of the compiled page: the document with its `html` form replaced. -/
def Plan.compiledForms (p : Plan) (options : CompileOptions) : Except Fault (List Datum) := do
  let html ← p.compiledHtml options
  if p.document.role == .html then return [html]
  (replaceRole .html html p.document).items

def Plan.render (p : Plan) (options : CompileOptions) : Except Fault Bundle := do
  let forms ← p.compiledForms options
  let markup ← Node.page? options.doctype (← Datum.listMarkup forms)
  return { markup, code := ← Module.text p.code options.width }

def compile (document : Datum) (options : CompileOptions) : Except Fault Bundle := do
  (← plan document).render options

/-! ## Namespace sources -/

/-- The value counts as present: `nil`, `false`, zero and what is empty do not. -/
def isPresent : Datum → Bool
  | .nil => false
  | .str s => !s.isEmpty
  | .seq _ xs => !xs.isEmpty
  | .map es => !es.isEmpty
  | v =>
    match v.number? with
    | some n => !n.equal (.int 0)
    | none => true

/-- The page of a namespace source. A source that starts with its `html` form is that form. -/
def liftSource (forms : Datum) : Except Fault Datum := do
  let first ← if isPresent forms then forms.get 0 else pure .nil
  match first.role with
  | .html => return first
  | .namespace =>
    if (← forms.size) < 2 then throw .lastNotMarkup
    let last ← forms.get (-1)
    if last.role != .html then throw .lastNotMarkup
    let html ← Stylesheet.compileAll last
    let logic ← (← forms.slice (some 1) (some (-1)) 1).items
    let body ← findBody html
    let body ← body.prependChildren [first, .call "do" (logic ++ [.nil])]
    return replaceRole .body body html
  | _ => throw .notMarkupOrNamespace

end Page

end PageForms
