import Symbolization.Address.Interval
import Symbolization.Dwarf.Sections

/-!
# Range lists

A list of address ranges is written as pairs of offsets from a base address that entries of the
list may change; from version 5 on also by addresses and their indexes.  Code that the linker
dropped is marked by an address near the greatest one, and its ranges do not count.
-/

namespace Symbolization

namespace Dwarf

inductive RangeListEntry where
  | setBase (address : UInt64)
  | setBaseByIndex (index : Nat)
  /-- Both ends as offsets from the base address. -/
  | offsets (low high : UInt64)
  | ends (low high : UInt64)
  | endsByIndex (low high : Nat)
  | start (low length : UInt64)
  | startByIndex (low : Nat) (length : UInt64)
  deriving DecidableEq, Repr

namespace RangeListEntry

/-- An entry before version 5, or nothing at the pair of zeros that ends the list. -/
def readPair (encoding : Encoding) : Reader (Option RangeListEntry) := do
  let low ← Reader.number encoding.addressSize
  let high ← Reader.number encoding.addressSize
  if low = 0 ∧ high = 0 then return none
  else if UInt64.ofNat low = encoding.greatestAddress then return some (.setBase (UInt64.ofNat high))
  else return some (.offsets (UInt64.ofNat low) (UInt64.ofNat high))

def readVariable : Reader UInt64 := do return UInt64.ofNat (← Reader.unsigned)

/-- An entry from version 5 on, or nothing at the end of the list. -/
def readCoded (encoding : Encoding) : Reader (Option RangeListEntry) := do
  match ← Reader.byte with
  | 0 => return none
  | 1 => return some (.setBaseByIndex (← Reader.unsigned))
  | 2 => return some (.endsByIndex (← Reader.unsigned) (← Reader.unsigned))
  | 3 => return some (.startByIndex (← Reader.unsigned) (← readVariable))
  | 4 => return some (.offsets (← readVariable) (← readVariable))
  | 5 => return some (.setBase (← encoding.readAddress))
  | 6 => return some (.ends (← encoding.readAddress) (← encoding.readAddress))
  | 7 => return some (.start (← encoding.readAddress) (← readVariable))
  | _ => Reader.fail

theorem readCoded_consumes (encoding : Encoding) : (readCoded encoding).Consumes :=
  Reader.byte_consumes.bind _

theorem readPair_consumes {encoding : Encoding} (positive : 0 < encoding.addressSize) :
    (readPair encoding).Consumes :=
  (Reader.number_consumes positive).bind _

/-- The entries of the list at an offset of its section, up to the end or to the first one that
cannot be read. -/
def list? (context : UnitContext) (offset : Nat) : Option (List RangeListEntry) :=
  let sections := context.sections
  if context.encoding.version ≤ 4 then
    ((Cursor.start sections.ranges sections.endian).skip? offset).map fun place =>
      if positive : 0 < context.encoding.addressSize then
        Reader.sequence (readPair context.encoding) (readPair_consumes positive) place
      else []
  else
    ((Cursor.start sections.rangeLists sections.endian).skip? offset).map
      (Reader.sequence (readCoded context.encoding) (readCoded_consumes _))

/-- The start of code that was dropped. -/
def droppedAddress (encoding : Encoding) : UInt64 :=
  if encoding.version ≤ 4 then encoding.greatestAddress - 1 else encoding.greatestAddress

/-- The range of an entry, if it has one, and the base address behind it.  Nothing at all is known
of an entry whose address has no place in the table. -/
def interpret (context : UnitContext) (base : UInt64) :
    RangeListEntry → Option (Option AddressInterval × UInt64)
  | .setBase address => some (none, address)
  | .setBaseByIndex index => do
    let address ← context.address? index
    some (none, address)
  | .offsets low high =>
    if base = droppedAddress context.encoding then some (none, base)
    else
      some (some ⟨context.encoding.addWrapping base low, context.encoding.addWrapping base high⟩,
        base)
  | .ends low high => some (some ⟨low, high⟩, base)
  | .endsByIndex low high => do
    let low ← context.address? low
    let high ← context.address? high
    some (some ⟨low, high⟩, base)
  | .start low length => some (some ⟨low, context.encoding.addWrapping low length⟩, base)
  | .startByIndex low length => do
    let low ← context.address? low
    some (some ⟨low, context.encoding.addWrapping low length⟩, base)

def holdsCode (encoding : Encoding) (range : AddressInterval) : Bool :=
  range.low < range.high && range.low != droppedAddress encoding

/-- The ranges of the entries that hold code, up to the first entry of which nothing is known. -/
def ranges (context : UnitContext) : (base : UInt64) → List RangeListEntry → List AddressInterval
  | _, [] => []
  | base, entry :: entries =>
    match entry.interpret context base with
    | none => []
    | some (range, base) =>
      range.toList.filter (holdsCode context.encoding) ++ ranges context base entries

end RangeListEntry

end Dwarf

end Symbolization
