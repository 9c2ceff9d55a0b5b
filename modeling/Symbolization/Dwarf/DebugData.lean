import Symbolization.Dwarf.AddressTable
import Symbolization.Dwarf.Unit

/-!
# Debug data of an image

The units of an image and the table that assigns addresses to them.
-/

namespace Symbolization

namespace Dwarf

structure DebugData where
  units : List CompilationUnit
  /-- The assignments in the order of their starts. -/
  table : List AddressAssignment

namespace DebugData

def ofSections (sections : Sections) : DebugData :=
  let units := CompilationUnit.all sections
  ⟨units, AddressAssignment.table sections (units.map (·.offset))⟩

def unitForAddress? (data : DebugData) (address : UInt64) : Option Nat :=
  AddressAssignment.find? data.table address

/-- The first unit that may have an entry at an offset of the section of units, by its place among
the units, with the offset in that unit. -/
def unitAt? (data : DebugData) (offset : Nat) : Option (Nat × Nat) :=
  data.units.zipIdx.findSome? fun (unit, index) =>
    (unit.entries.header.offsetIn? offset).map fun inside => (index, inside)

end DebugData

end Dwarf

end Symbolization
