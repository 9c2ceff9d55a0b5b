import Symbolization.Dwarf.Unit

/-!
# Code of an entry

The code of an entry is given by a range list, or by its lowest address together with its length
or the address behind it.  The first attribute that is a range list decides.  An attribute of
these that cannot be read leaves the entry without code.
-/

namespace Symbolization

namespace Dwarf

/-- What single attributes say about the one range of an entry. -/
structure EntryExtent where
  low : Option UInt64
  high : Option UInt64
  length : Option UInt64
  deriving DecidableEq, Repr

namespace EntryExtent

def unknown : EntryExtent := ⟨none, none, none⟩

/-- The range, which may be empty.  A length counts more than the address behind it. -/
def range? (extent : EntryExtent) : Option AddressInterval := do
  let low ← extent.low
  match extent.length with
  | some length => some ⟨low, low + length⟩
  | none => extent.high.map fun high => ⟨low, high⟩

def withLow? (context : UnitContext) (extent : EntryExtent) (value : AttributeValue) :
    Option EntryExtent :=
  (context.addressOf? value).map fun address => { extent with low := some address }

/-- The extent with what a value of the highest address adds: a number is a length. -/
def withHigh? (context : UnitContext) (extent : EntryExtent) (value : AttributeValue) :
    Option EntryExtent :=
  match value.unsigned? with
  | some length => some { extent with length := some (UInt64.ofNat length) }
  | none =>
    (context.addressOf? value).map fun address => { extent with high := some address }

end EntryExtent

namespace CompilationUnit

/-- The ranges of the list at an offset, none if the offset is outside of its section. -/
def rangesAt (unit : CompilationUnit) (offset : Nat) : List AddressInterval :=
  match RangeListEntry.list? unit.context offset with
  | none => []
  | some entries => RangeListEntry.ranges unit.context unit.lowAddress entries

def listedRanges? (unit : CompilationUnit) : AttributeValue → Option (List AddressInterval)
  | .sectionOffset offset => some (unit.rangesAt offset)
  | .rangeListIndex index =>
    let base := unit.context.bases.rangeLists
    match unit.context.tableOffset? unit.context.sections.rangeLists base index with
    | none => some []
    | some offset => some (unit.rangesAt (base + offset))
  | _ => none

/-- The ranges by attributes that follow those which gave `extent`. -/
def rangesFrom (unit : CompilationUnit) (isReadable : Bool) :
    EntryExtent → List Attribute → List AddressInterval
  | extent, [] => if isReadable then extent.range?.toList else []
  | extent, ⟨name, value⟩ :: attributes =>
    if name = .lowAddress then
      match extent.withLow? unit.context value with
      | none => []
      | some extent => unit.rangesFrom isReadable extent attributes
    else if name = .highAddress then
      match extent.withHigh? unit.context value with
      | none => []
      | some extent => unit.rangesFrom isReadable extent attributes
    else if name = .ranges then
      match unit.listedRanges? value with
      | some ranges => ranges
      | none => unit.rangesFrom isReadable extent attributes
    else unit.rangesFrom isReadable extent attributes

def ranges (unit : CompilationUnit) (entry : Entry) : List AddressInterval :=
  unit.rangesFrom entry.isReadable .unknown entry.attributes

end CompilationUnit

end Dwarf

end Symbolization
