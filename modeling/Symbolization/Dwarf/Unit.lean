import Symbolization.Dwarf.Entries
import Symbolization.Dwarf.Line.Row
import Symbolization.Dwarf.RangeList

/-!
# Compilation units

The entry at the top of a unit says where its tables start, what the unit was compiled from, and
which line program belongs to it.  A unit of which any of this cannot be read is left out.
-/

namespace Symbolization

namespace Dwarf

namespace Entry

/-- The value of the last attribute of a name. -/
def lastValue? (entry : Entry) (name : AttributeName) : Option AttributeValue :=
  ((entry.attributes.filter (·.name == name)).getLast?).map (·.value)

/-- The offset into another section that the last attribute of some names gives. -/
def lastOffset? (entry : Entry) (names : List AttributeName) : Option Nat :=
  ((entry.attributes.filter (names.contains ·.name)).filterMap (·.value.sectionOffset?)).getLast?

/-- Where the tables of the unit with this entry at its top start. -/
def tableBases (entry : Entry) : TableBases where
  texts := (entry.lastOffset? [.stringOffsetsBase]).getD 0
  addresses := (entry.lastOffset? [.addressBase, .olderAddressBase]).getD 0
  rangeLists := (entry.lastOffset? [.rangeListsBase, .olderRangesBase]).getD 0

end Entry

/-- A unit with what the entry at its top says. -/
structure CompilationUnit where
  context : UnitContext
  entries : Entries
  /-- The file that the unit was compiled from. -/
  name : Option (List UInt8)
  /-- The directory in which it was compiled. -/
  directory : Option (List UInt8)
  lowAddress : UInt64
  lines : Option LineHeader

namespace CompilationUnit

/-- The line program that an entry names, if it names one, which must be readable then. -/
def lines? (context : UnitContext) (entry : Entry) : Option (Option LineHeader) :=
  match entry.lastOffset? [.lineTable] with
  | none => some none
  | some offset =>
    (context.sections.read? context.sections.lines (LineHeader.read context.encoding.addressSize)
      offset).map some

/-- The lowest address as an entry gives it, or zero.  An index must be that of an address. -/
def lowAddress? (context : UnitContext) (entry : Entry) : Option UInt64 :=
  match entry.lastValue? .lowAddress with
  | some (.address address) => some address
  | some (.addressIndex index) => context.address? index
  | _ => some 0

def ofHeader? (sections : Sections) (header : UnitHeader) : Option CompilationUnit := do
  let abbreviations ←
    sections.read? sections.abbreviations Abbreviation.readTable header.abbreviations
  let entries : Entries := ⟨header, abbreviations⟩
  let root ← entries.root?
  let _behind ← root.end?
  let context : UnitContext := ⟨sections, header.encoding, root.tableBases⟩
  let lines ← lines? context root
  let lowAddress ← lowAddress? context root
  some {
    context
    entries
    name := (root.lastValue? .plainName).bind context.text?
    directory := (root.lastValue? .compilationDirectory).bind context.text?
    lowAddress
    lines }

/-- A header in the section of units, which goes on up to the end of its bytes. -/
def nextHeader : Reader (Option UnitHeader) := do return some (← UnitHeader.read)

def headers (sections : Sections) : List UnitHeader :=
  Reader.sequence nextHeader (UnitHeader.read_consumes.bind _)
    (.start sections.info sections.endian)

def all (sections : Sections) : List CompilationUnit :=
  (headers sections).filterMap (ofHeader? sections)

def offset (unit : CompilationUnit) : Nat := unit.entries.header.offset

end CompilationUnit

end Dwarf

end Symbolization
