import Symbolization.Error
import Symbolization.Session.View

/-!
# Sessions

A session registers modules in batches and answers questions about them.  A batch names all the
modules to keep: those that it leaves out are dropped when it ends.
-/

namespace Symbolization

/-- A type of sessions. -/
class DebugSession (Session : Type) where
  /-- Opens a batch.  A batch that was open is given up. -/
  reportBegin : Session → Session
  /-- Adds the image at a path, moved by a load address, to the open batch. -/
  reportModule : Session → FilePath → UInt64 → Except SymbolizeError ModuleHandle × Session
  /-- Registers the modules of the open batch in place of those registered before. -/
  reportEnd : Session → Except SymbolizeError Unit × Session
  /-- What the session answers about the registered modules. -/
  view : Session → DebugView
  /-- Takes note that the units of a module are enumerated. -/
  noteEnumeration : Session → ModuleHandle → Session

/-- The units of a module, and the session that has enumerated them. -/
def DebugSession.enumerate {Session : Type} [DebugSession Session] (session : Session)
    (module : ModuleHandle) : List OwnedUnit × Session :=
  ((view session).units module, noteEnumeration session module)

end Symbolization
