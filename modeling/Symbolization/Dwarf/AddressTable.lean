import Symbolization.Address.Interval
import Symbolization.Dwarf.Sections
import Symbolization.Order.Search

/-!
# The address table of a module

The table assigns stretches of addresses to units.  It consists of sets, one for each unit, and
counts as a whole: if any set that belongs to a unit cannot be read, nothing is assigned.
-/

namespace Symbolization

namespace Dwarf

/-- A set of the table: the unit by its offset, and where the stretches are written. -/
structure AddressSet where
  unitOffset : Nat
  encoding : Encoding
  entries : Cursor

namespace AddressSet

def entryBytes (encoding : Encoding) : Nat := 2 * encoding.addressSize

/-- The header of a set in the bytes that its length counts.  The stretches start at a multiple of
their size from the start of the set. -/
def readHeader (offsetSize : OffsetSize) : Reader (Nat × Encoding) := do
  let version ← Reader.number 2
  Reader.require (version == 2 || version == 3)
  let unitOffset ← offsetSize.read
  let size ← addressSize
  let segmentSize ← Reader.byte
  Reader.require (segmentSize == 0)
  let encoding : Encoding := ⟨offsetSize, version, size⟩
  let headerBytes := offsetSize.lengthBytes + 2 + offsetSize.bytes + 1 + 1
  let excess := headerBytes % entryBytes encoding
  Reader.skip (if excess = 0 then 0 else entryBytes encoding - excess)
  return (unitOffset, encoding)

/-- A set, of which all but the header is passed over. -/
def read : Reader AddressSet := do
  let (length, offsetSize) ← initialLength
  let body ← Reader.stretch length
  let ((unitOffset, encoding), entries) ← Reader.ofOption ((readHeader offsetSize).run body)
  return ⟨unitOffset, encoding, entries⟩

theorem read_consumes : read.Consumes := initialLength_consumes.bind _

/-- The start and the length of a stretch, or nothing where fewer bytes than it takes are left. -/
def readEntry (encoding : Encoding) : Reader (Option (UInt64 × UInt64)) := do
  let low ← encoding.readAddress
  let length ← encoding.readAddress
  return some (low, length)

/-- The stretch that an entry of a set stands for.  A pair of zeros and the mark of dropped code
stand for none; an end beyond the greatest address is a fault. -/
def stretch? (encoding : Encoding) (entry : UInt64 × UInt64) : Option (Option AddressInterval) :=
  if entry.1 = 0 ∧ entry.2 = 0 then some none
  else if entry.1 = encoding.greatestAddress then some none
  else (encoding.add? entry.1 entry.2).map fun high => some ⟨entry.1, high⟩

theorem readEntry_consumes {encoding : Encoding} (positive : 0 < encoding.addressSize) :
    (readEntry encoding).Consumes :=
  ((Reader.number_consumes positive).bind _).bind _

def stretches? (set : AddressSet) : Option (List AddressInterval) :=
  let entries :=
    if positive : 0 < set.encoding.addressSize then
      Reader.sequence (readEntry set.encoding) (readEntry_consumes positive) set.entries
    else []
  (entries.mapM (stretch? set.encoding)).map fun stretches =>
    (stretches.filterMap id).filter fun stretch => stretch.low < stretch.high

end AddressSet

/-- A stretch of addresses and the unit that it is assigned to, by its place among the units. -/
structure AddressAssignment where
  range : AddressInterval
  unit : Nat
  deriving DecidableEq, Repr

namespace AddressAssignment

/-- The assignments of a set to the unit at its offset, none if there is no such unit. -/
def ofSet? (unitOffsets : List Nat) (set : AddressSet) : Option (List AddressAssignment) :=
  match unitOffsets.idxOf? set.unitOffset with
  | none => some []
  | some unit => set.stretches?.map fun stretches => stretches.map fun range => ⟨range, unit⟩

def read? (sections : Sections) (unitOffsets : List Nat) : Option (List AddressAssignment) := do
  let sets ← Reader.filling? AddressSet.read AddressSet.read_consumes
    (.start sections.addressTable sections.endian)
  let assignments ← sets.mapM (ofSet? unitOffsets)
  some assignments.flatten

/-- The assignments in the order of their starts, those of one start in the order of the
section. -/
def table (sections : Sections) (unitOffsets : List Nat) : List AddressAssignment :=
  ((read? sections unitOffsets).getD []).mergeSort fun left right =>
    left.range.low ≤ right.range.low

/-- The unit of the last assignment in the table that holds the address. -/
def find? (table : List AddressAssignment) (address : UInt64) : Option Nat :=
  (lastUpTo? (·.range.low) address (·.range.contains address) table).map (·.unit)

end AddressAssignment

end Dwarf

end Symbolization
