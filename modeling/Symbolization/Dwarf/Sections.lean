import Symbolization.Dwarf.Form

/-!
# Debug sections

The sections of an image that hold debug data, and the lookups that lead from an attribute into
them: texts by offset or index, and addresses by index.  An index counts from a base that the unit
of the attribute gives.  Debug data that is split into another file, or shared between files, is left
where it is.
-/

namespace Symbolization

namespace Dwarf

/-- The debug data of an image.  A section that the image does not have is empty. -/
structure Sections where
  endian : Endian
  info : ByteArray
  abbreviations : ByteArray
  lines : ByteArray
  texts : ByteArray
  lineTexts : ByteArray
  textOffsets : ByteArray
  addresses : ByteArray
  ranges : ByteArray
  rangeLists : ByteArray
  addressTable : ByteArray

namespace Sections

def ofNamed (endian : Endian) (section? : String → ByteArray) : Sections where
  endian
  info := section? ".debug_info"
  abbreviations := section? ".debug_abbrev"
  lines := section? ".debug_line"
  texts := section? ".debug_str"
  lineTexts := section? ".debug_line_str"
  textOffsets := section? ".debug_str_offsets"
  addresses := section? ".debug_addr"
  ranges := section? ".debug_ranges"
  rangeLists := section? ".debug_rnglists"
  addressTable := section? ".debug_aranges"

def read? {α : Type} (sections : Sections) (bytes : ByteArray) (reader : Reader α)
    (offset : Nat) : Option α :=
  reader.at? (.start bytes sections.endian) offset

end Sections

/-- Where the parts of the tables that belong to a unit start. -/
structure TableBases where
  texts : Nat
  addresses : Nat
  rangeLists : Nat
  deriving DecidableEq, Repr

/-- What is needed to read the attributes of a unit: the sections, how the unit is written, and
where its tables start. -/
structure UnitContext where
  sections : Sections
  encoding : Encoding
  bases : TableBases

namespace UnitContext

def tableOffset? (context : UnitContext) (table : ByteArray) (base index : Nat) : Option Nat :=
  context.sections.read? table context.encoding.readOffset
    (base + index * context.encoding.offsetSize.bytes)

def address? (context : UnitContext) (index : Nat) : Option UInt64 :=
  context.sections.read? context.sections.addresses context.encoding.readAddress
    (context.bases.addresses + index * context.encoding.addressSize)

def text? (context : UnitContext) : AttributeValue → Option (List UInt8)
  | .text bytes => some bytes
  | .stringOffset offset => context.sections.read? context.sections.texts Reader.text offset
  | .lineStringOffset offset =>
    context.sections.read? context.sections.lineTexts Reader.text offset
  | .stringIndex index => do
    let offset ← context.tableOffset? context.sections.textOffsets context.bases.texts index
    context.sections.read? context.sections.texts Reader.text offset
  | _ => none

def addressOf? (context : UnitContext) : AttributeValue → Option UInt64
  | .address address => some address
  | .addressIndex index => context.address? index
  | _ => none

end UnitContext

end Dwarf

end Symbolization
