import PageForms.Text.Join

/-!
# Help

How the program and its commands are used, for those who ask.
-/

namespace PageForms

/-- What help is asked about. -/
inductive HelpTopic where
  | program
  | compile
  | forms
deriving DecidableEq, Repr

namespace HelpTopic

def usage : HelpTopic → List String
  | program => ["usage: hlisp [-h] [--version] [-v] \x7bcompile,forms\x7d ..."]
  | compile =>
    ["usage: hlisp compile [-h] [--out OUT] [--js-uri JS_URI] [--base-uri BASE_URI]",
     "                     [--width WIDTH]",
     "                     path"]
  | forms => ["usage: hlisp forms [-h] [--width WIDTH] path"]

def arguments : HelpTopic → List String
  | program =>
    ["hlisp: HTML + ClojureScript page compiler",
     "",
     "positional arguments:",
     "  \x7bcompile,forms\x7d",
     "    compile        Compile a .html/.cljs page (or a directory of them)",
     "    forms          Print the form forest a source file parses into"]
  | compile =>
    ["positional arguments:",
     "  path                 Input source file or directory"]
  | forms =>
    ["positional arguments:",
     "  path           Input .html or .cljs file"]

def options : HelpTopic → List String
  | program =>
    ["options:",
     "  -h, --help       show this help message and exit",
     "  --version        show program's version number and exit",
     "  -v, --verbose    Enable debug logging"]
  | compile =>
    ["options:",
     "  -h, --help           show this help message and exit",
     "  --out OUT            Output directory (default: from toml, else print)",
     "  --js-uri JS_URI      URI of the compiled module (default: from toml, else",
     "                       main.js)",
     "  --base-uri BASE_URI  URI of the Closure base script (unoptimized builds)",
     "  --width WIDTH        Right margin of the generated module"]
  | forms =>
    ["options:",
     "  -h, --help     show this help message and exit",
     "  --width WIDTH  Right margin (default: 72)"]

def text (topic : HelpTopic) : String :=
  Text.joinWith "\n" (topic.usage ++ [""] ++ topic.arguments ++ [""] ++ topic.options ++ [""])

end HelpTopic

end PageForms
