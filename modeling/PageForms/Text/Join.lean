/-!
# Putting texts together

Joining with a separator, padding with spaces and replacing characters.
-/

namespace PageForms.Text

def joinWith (sep : String) : List String → String
  | [] => ""
  | [s] => s
  | s :: t :: rest => s ++ sep ++ joinWith sep (t :: rest)

def concat : List String → String
  | [] => ""
  | s :: rest => s ++ concat rest

/-- So many spaces; none for a negative count. -/
def spaces (n : Int) : String :=
  String.ofList (List.replicate n.toNat ' ')

def substitute (f : Char → String) (s : String) : String :=
  concat (s.toList.map f)

def take (n : Nat) (s : String) : String :=
  String.ofList (s.toList.take n)

def startsWith (front s : String) : Bool :=
  front.toList.isPrefixOf s.toList

end PageForms.Text
