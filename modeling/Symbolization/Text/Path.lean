/-!
# Slash-separated paths

A path is read as a list of components: repeated slashes and dots after the start do not count.
Two paths are the same if their components are, and cleaning a path folds `.` and `..` without
asking any file system.
-/

namespace Symbolization

inductive PathComponent where
  | root
  | current
  | parent
  | named (name : String)
  deriving DecidableEq, Repr

namespace PathComponent

def text : PathComponent → String
  | .root => "/"
  | .current => "."
  | .parent => ".."
  | .named name => name

/-- The step that a piece between slashes stands for.  Empty pieces and dots stand for none. -/
def ofPiece? (piece : List Char) : Option PathComponent :=
  match piece with
  | [] => none
  | ['.'] => none
  | ['.', '.'] => some .parent
  | name => some (.named (String.ofList name))

end PathComponent

namespace Path

def isAbsolute (path : String) : Bool :=
  path.toList.head? == some '/'

def pieces (path : String) : List (List Char) :=
  path.toList.splitOn '/'

/-- The components of a path.  A dot counts only where a relative path starts with it. -/
def components (path : String) : List PathComponent :=
  let start : List PathComponent :=
    if isAbsolute path then [.root]
    else if (pieces path).head? == some ['.'] then [.current]
    else []
  start ++ (pieces path).filterMap PathComponent.ofPiece?

def same (left right : String) : Bool :=
  components left == components right

/-- The path `path` seen from `base`: an absolute one stands for itself, any other is written
after `base` and a slash, unless `base` is empty or ends in one. -/
def join (base path : String) : String :=
  if isAbsolute path then path
  else if base.toList.getLast?.any (· != '/') then base ++ "/" ++ path
  else base ++ path

/-- One step of folding: `folded` holds the components so far, the last one first. -/
def foldComponent (folded : List PathComponent) : PathComponent → List PathComponent
  | .current => folded
  | .parent =>
    match folded with
    | .named _ :: rest => rest
    | .root :: rest => .root :: rest
    | _ => .parent :: folded
  | component => component :: folded

/-- The components without `.`, and without every `..` that has something to undo. -/
def fold (components : List PathComponent) : List PathComponent :=
  (components.foldl foldComponent []).reverse

def render (components : List PathComponent) : String :=
  components.foldl (fun path component => join path component.text) ""

/-- The path with `.` and `..` folded.  The empty path stays empty, any other path that folds to
nothing is the dot. -/
def clean (path : String) : String :=
  if path = "" then ""
  else
    match fold (components path) with
    | [] => "."
    | parts => render parts

end Path

end Symbolization
