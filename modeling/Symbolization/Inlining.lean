import Symbolization.Frame
import Symbolization.Session.View
import Symbolization.Text.Path

/-!
# Frames of inlined calls

The line table knows only the position inside the innermost inlined body.  Every inlined scope
around an address tells where its caller invoked it.  Frame `i` pairs the routine at level `i` with
the position inside it, which for `i > 0` is the call site of the routine one level further in.
-/

namespace Symbolization

structure FramePosition where
  file : String
  line : Nat
  column : Nat
  deriving DecidableEq, Repr

namespace FramePosition

/-- A source position with its path cleaned, or the unknown file. -/
def ofSource (position : SourcePosition) : FramePosition :=
  ⟨(position.file.map Path.clean).getD unknownText, position.line, position.column⟩

end FramePosition

namespace Frame

def position (frame : Frame) : FramePosition := ⟨frame.file, frame.line, frame.column⟩

def placed (name : String) (position : FramePosition) (isInlined : Bool) : Frame :=
  ⟨name, position.file, position.line, position.column, isInlined⟩

end Frame

structure InlinedCall where
  name : String
  site : FramePosition
  deriving DecidableEq, Repr

namespace InlinedCall

/-- The frames of calls, innermost first, when the position inside the first one is `position`,
and below them the frame of the function that holds the code. -/
def frames (outerName : String) : (position : FramePosition) → List InlinedCall → List Frame
  | position, [] => [.placed outerName position false]
  | position, call :: calls => .placed call.name position true :: frames outerName call.site calls

end InlinedCall

namespace DebugView

def inlinedCall (view : DebugView) (scope : EntryHandle) : InlinedCall :=
  ⟨(view.linkageName scope).getD unknownText, .ofSource (view.callSite scope)⟩

/-- The inlined calls around an on-disk address, innermost first. -/
def inlinedCalls (view : DebugView) (unit : UnitHandle) (offset : UInt64) : List InlinedCall :=
  ((view.scopes unit offset).filter fun scope => view.tag scope == some .inlinedSubroutine).map
    view.inlinedCall

/-- The frames at an on-disk address of a unit.  `outer` carries the name of the function and the
line-table position of the address, and is left as it is where no scope encloses the address. -/
def inlineFrames (view : DebugView) (unit : UnitHandle) (offset : UInt64) (outer : Frame) :
    List Frame :=
  if (view.scopes unit offset).isEmpty then [outer]
  else InlinedCall.frames outer.name outer.position (view.inlinedCalls unit offset)

end DebugView

end Symbolization
