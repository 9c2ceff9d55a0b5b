import Symbolization.CommandLine.Outcome

/-!
# The program

Prints the locations of addresses in images.
-/

namespace Symbolization

namespace CommandLine

def fileError : IO.Error → FileError
  | .noFileOrDirectory .. => .notFound
  | .inappropriateType .. => .isADirectory
  | _ => .notADirectory

def readImage (path : String) : IO (Except FileError ByteArray) := do
  try
    return .ok (← IO.FS.readBinFile path)
  catch error => return .error (fileError error)

def readImages (images : List ImageArgument) : IO FileSource := do
  let files ← images.mapM fun image => return ((image.path : FilePath), ← readImage image.path)
  return fun path =>
    match files.find? (·.1 == path) with
    | some file => file.2
    | none => .error .notFound

def imageArguments (arguments : List String) : List ImageArgument :=
  match Request.parse arguments with
  | .ok request => request.images
  | .error _ => []

end CommandLine

end Symbolization

open Symbolization CommandLine

def main (arguments : List String) : IO UInt32 := do
  let source ← readImages (imageArguments arguments)
  let outcome := Outcome.ofArguments arguments source
  IO.print outcome.output
  if let some error := outcome.error then IO.eprintln error.message
  return outcome.exitCode
