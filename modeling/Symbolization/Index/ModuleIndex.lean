import Symbolization.Index.RangeSet
import Symbolization.Session.Session

/-!
# The code of one module

The range sets of the units of a module that have code, in the order of the units.
-/

namespace Symbolization

/-- The units of a module with their ranges, and a box around all of them. -/
structure ModuleIndex where
  bounds : AddressInterval
  sets : List RangeSet
  deriving Repr

namespace ModuleIndex

def ofUnits (view : DebugView) (units : List OwnedUnit) : ModuleIndex :=
  let sets :=
    (units.map fun owned => RangeSet.build view owned.unit owned.bias).filter
      fun set => !set.isEmpty
  ⟨(sets.map RangeSet.bounds).foldl AddressInterval.cover .unset, sets⟩

/-- Gathers the ranges of every unit of a module. -/
def build (view : DebugView) (module : ModuleHandle) : ModuleIndex :=
  ofUnits view (view.units module)

/-- Gathers the ranges of the units that a session enumerates. -/
def buildFrom {Session : Type} [DebugSession Session] (session : Session)
    (module : ModuleHandle) : ModuleIndex × Session :=
  let (units, next) := DebugSession.enumerate session module
  (ofUnits (DebugSession.view session) units, next)

def findUnit (index : ModuleIndex) (address : UInt64) : Option OwnedUnit :=
  if index.bounds.contains address then
    (index.sets.find? (·.contains address)).map fun set => ⟨set.unit, set.bias⟩
  else none

def size (index : ModuleIndex) : Nat := index.sets.length

def isEmpty (index : ModuleIndex) : Bool := index.sets.isEmpty

end ModuleIndex

end Symbolization
