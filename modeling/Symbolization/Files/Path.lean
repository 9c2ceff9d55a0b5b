import Symbolization.Text.Path
import Symbolization.Text.Utf8

/-!
# Paths of files

A path is a text, or else bytes that are none.  It is told as the text with U+FFFD in place of each
ill-formed stretch, so different paths may be told alike.
-/

namespace Symbolization

/-- A path by which a file is found. -/
inductive FilePath where
  | text (written : String)
  | illFormed (bytes : List UInt8) (noText : Utf8.strict? bytes = none)
  deriving DecidableEq, Repr

namespace FilePath

instance : Coe String FilePath := ⟨text⟩

/-- The path as it is told. -/
def told : FilePath → String
  | .text written => written
  | .illFormed bytes _ => Utf8.lossy bytes

def bytes : FilePath → List UInt8
  | .text written => written.toList.flatMap String.utf8EncodeChar
  | .illFormed bytes _ => bytes

/-- Whether the path has the same components as the one that is written as the text. -/
def isSame (path : FilePath) (other : String) : Bool :=
  match path with
  | .text written => Path.same other written
  | .illFormed _ _ => false

def isAbsolute (path : FilePath) : Bool := path.bytes.head? == some 0x2f

def pieces (path : FilePath) : List (List UInt8) := path.bytes.splitOn 0x2f

end FilePath

end Symbolization
