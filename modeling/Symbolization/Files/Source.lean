import Symbolization.Files.Path

/-!
# Where images are read from

A session reads an image by its path and gets its bytes or the reason why there are none.  A file
tree is such a source over files that are held in memory, seen from the directory at its top.
-/

namespace Symbolization

inductive FileError where
  | notFound
  | notADirectory
  | isADirectory
  | empty
  /-- No module goes by this path. -/
  | unknownModule (path : String)
  deriving DecidableEq, Repr

namespace FileError

def message : FileError → String
  | .notFound => "No such file or directory (os error 2)"
  | .notADirectory => "Not a directory (os error 20)"
  | .isADirectory => "No such device (os error 19)"
  | .empty => "memory map must have a non-zero length"
  | .unknownModule path => path

end FileError

abbrev FileSource := FilePath → Except FileError ByteArray

/-- Files by the names that lead to them from the top directory. -/
structure FileTree where
  files : List (List (List UInt8) × ByteArray)

namespace FileTree

/-- A place in the tree: a directory, named from the inside out, or a file. -/
inductive Place where
  | directory (names : List (List UInt8))
  | file (bytes : ByteArray)

/-- The tree of files with the given slash-separated paths. -/
def ofList (files : List (String × ByteArray)) : FileTree :=
  ⟨files.map fun file => ((file.1 : FilePath).pieces, file.2)⟩

def enter (tree : FileTree) (directory : List (List UInt8)) (name : List UInt8) :
    Except FileError Place :=
  let path := (name :: directory).reverse
  match tree.files.find? (·.1 == path) with
  | some file => .ok (.file file.2)
  | none =>
    if tree.files.any (path.isPrefixOf ·.1) then .ok (.directory (name :: directory))
    else .error .notFound

/-- One step along a path.  Above the top directory nothing can be found. -/
def step (tree : FileTree) (place : Place) (piece : List UInt8) : Except FileError Place :=
  match place, piece with
  | .file _, _ => .error .notADirectory
  | place, [] => .ok place
  | place, [0x2e] => .ok place
  | .directory [], [0x2e, 0x2e] => .error .notFound
  | .directory (_ :: names), [0x2e, 0x2e] => .ok (.directory names)
  | .directory names, name => tree.enter names name

def read (tree : FileTree) : FileSource := fun path =>
  if path.bytes.isEmpty || path.isAbsolute then .error .notFound
  else do
    match ← path.pieces.foldlM tree.step (.directory []) with
    | .directory _ => .error .isADirectory
    | .file bytes => .ok bytes

end FileTree

end Symbolization
