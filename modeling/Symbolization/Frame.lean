import Symbolization.Address.Hexadecimal

/-!
# Frames and resolved locations

A frame is one level of a call, possibly one that the compiler inlined.  A resolved location is all
that is known about one instruction address.
-/

namespace Symbolization

/-- Stands for a name or a file that could not be recovered. -/
def unknownText : String := "??"

structure Frame where
  name : String
  file : String
  line : Nat
  column : Nat
  isInlined : Bool
  deriving DecidableEq, Repr

namespace Frame

/-- A frame of which nothing but the name is known. -/
def named (name : String) : Frame := ⟨name, unknownText, 0, 0, false⟩

instance : Inhabited Frame := ⟨named unknownText⟩

/-- The frame on one line.  Column zero is not written. -/
def text (frame : Frame) : String :=
  frame.name ++ " at " ++ frame.file ++ ":" ++ toString frame.line
    ++ (if frame.column = 0 then "" else ":" ++ toString frame.column)
    ++ (if frame.isInlined then " (inlined)" else "")

end Frame

/-- All that is known about one address.  The first frame is the innermost one, the last one the
function that holds the code. -/
structure ResolvedLocation where
  moduleName : String
  moduleOffset : UInt64
  symbolOffset : UInt64
  frames : List Frame
  deriving DecidableEq, Repr

namespace ResolvedLocation

/-- The location of an address that belongs to no module. -/
def unresolved : ResolvedLocation := ⟨"", 0, 0, []⟩

instance : Inhabited ResolvedLocation := ⟨unresolved⟩

def isEmpty (location : ResolvedLocation) : Bool :=
  location.moduleName.isEmpty && location.frames.isEmpty

/-- The module and the offset in it, and below it one indented line per frame. -/
def text (location : ResolvedLocation) : String :=
  if location.isEmpty then unknownText
  else
    location.moduleName ++ "+" ++ Hexadecimal.render location.moduleOffset
      ++ String.join (location.frames.map fun frame => "\n    " ++ frame.text)

end ResolvedLocation

end Symbolization
