import Symbolization.Address.Hexadecimal
import Symbolization.Text.Quoted

/-!
# Arguments of the command line

An address is given in hexadecimal.  An image is given by its path, optionally followed by an `@`
and the address that it was loaded at.  All arguments are texts; bytes that are none do not get here.
-/

namespace Symbolization

namespace CommandLine

structure AddressError where
  text : String
  reason : Hexadecimal.ParseError
  deriving DecidableEq, Repr

namespace AddressError

def message (error : AddressError) : String :=
  "invalid address " ++ Quoted.render error.text ++ ": " ++ error.reason.message

end AddressError

def parseAddress (text : String) : Except AddressError UInt64 :=
  (Hexadecimal.parse text).mapError (AddressError.mk text)

structure ImageArgument where
  path : String
  loadAddress : UInt64
  deriving DecidableEq, Repr

/-- What stands before and behind the last `@`, if there is one. -/
def splitAtLastMark : List Char → Option (List Char × List Char)
  | [] => none
  | char :: rest =>
    match splitAtLastMark rest with
    | some (front, back) => some (char :: front, back)
    | none => if char = '@' then some ([], rest) else none

/-- Reads an image.  Without an address it was loaded at zero. -/
def parseImage (text : String) : Except AddressError ImageArgument :=
  match splitAtLastMark text.toList with
  | none => .ok ⟨text, 0⟩
  | some (path, address) =>
    (parseAddress (String.ofList address)).map (ImageArgument.mk (String.ofList path))

end CommandLine

end Symbolization
