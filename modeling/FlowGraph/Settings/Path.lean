/-!
# Paths

A path is text. Its parts stand between slashes; empty parts and single dots name nothing, so that
several spellings mean one place, but messages show a path as it was spelled.

* `PathText` — a path, with its `pieces`.
* `PathText.parent?`, `PathText.fileName?`, `PathText.child` — its directory, its last name, and
  paths below it.
-/

namespace FlowGraph

/-- A path as text. -/
structure PathText where
  text : String
  deriving DecidableEq, Inhabited

namespace PathText

/-- The parts between slashes. -/
def pieces (p : PathText) : List String := p.text.splitOn "/"

/-- Whether a part names nothing of its own: an empty one, or the dot of the directory it is in. -/
def isIdle (s : String) : Bool := s.isEmpty || s == "."

/-- Parts without the idle ones at their end. A first part is never idle. -/
def trimEnd : List String → List String
  | [] => []
  | first :: rest => first :: (rest.reverse.dropWhile isIdle).reverse

/-- The path of the directory that a path lies in; nothing for the empty path and the root. -/
def parent? (p : PathText) : Option PathText :=
  match trimEnd p.pieces with
  | [] | [""] => none
  | pieces =>
    match trimEnd pieces.dropLast with
    | [] => some ⟨""⟩
    | [""] => some ⟨"/"⟩
    | outer => some ⟨String.intercalate "/" outer⟩

/-- The last name of a path; nothing if the path ends in a step upwards or has no name. -/
def fileName? (p : PathText) : Option String :=
  match (trimEnd p.pieces).getLast? with
  | some name => if isIdle name || name == ".." then none else some name
  | none => none

/-- A name below a path. -/
def child (p : PathText) (name : String) : PathText :=
  if p.text.endsWith "/" then ⟨p.text ++ name⟩ else ⟨p.text ++ "/" ++ name⟩

/-- The pieces without the empty ones that slashes at the end leave. -/
def steps (p : PathText) : List String :=
  (p.pieces.reverse.dropWhile String.isEmpty).reverse

/-- Whether slashes follow the last name. -/
def endsOpen (p : PathText) : Bool := p.text.endsWith "/"

end PathText

end FlowGraph
