/-! Paths as text: names between slashes. A path that starts with a slash is absolute. -/

namespace StakeLedger

structure Path where
  text : String
  deriving DecidableEq, Inhabited, Repr

namespace Path

def isAbsolute (p : Path) : Bool := p.text.toList.head? == some '/'

/-- A path under a directory; an absolute one stands for itself. -/
def join (directory relative : Path) : Path :=
  if relative.isAbsolute then relative
  else if directory.text.isEmpty ∨ directory.text.toList.getLast? = some '/' then
    ⟨directory.text ++ relative.text⟩
  else ⟨directory.text ++ "/" ++ relative.text⟩

def withSuffix (p : Path) (suffix : String) : Path := ⟨p.text ++ suffix⟩

def names (p : Path) : List String :=
  let step (c : Char) (parts : List (List Char)) : List (List Char) :=
    if c = '/' then [] :: parts
    else match parts with
      | part :: rest => (c :: part) :: rest
      | [] => [[c]]
  (p.text.toList.foldr step [[]]).map String.ofList

def parent (p : Path) : Path :=
  match p.names.dropLast with
  | [""] => ⟨"/"⟩
  | names => ⟨String.intercalate "/" names⟩

end Path

end StakeLedger
