import Symbolization.Address.Interval
import Symbolization.Elf.File

/-!
# Extents

The extent of an image is the least interval around all that it loads.
-/

namespace Symbolization

def lastAddress : UInt64 := 0xffffffffffffffff

/-- The sum of an address and a length, or the greatest address if that is less. -/
def addSaturating (address length : UInt64) : UInt64 :=
  if address.toNat + length.toNat < UInt64.size then address + length else lastAddress

namespace AddressInterval

/-- The addresses of a stretch of memory that is not empty. -/
def ofStretch? (address size : UInt64) : Option AddressInterval :=
  if size = 0 then none else some ⟨address, addSaturating address size⟩

def hull (left right : AddressInterval) : AddressInterval :=
  ⟨min left.low right.low, max left.high right.high⟩

/-- The least interval around all of them, if there is one. -/
def hull? : List AddressInterval → Option AddressInterval
  | [] => none
  | first :: rest => some (rest.foldl hull first)

end AddressInterval

namespace Elf

namespace File

def segmentStretches (file : File) : List AddressInterval :=
  (file.segments.filter (·.isLoadable)).filterMap fun segment =>
    AddressInterval.ofStretch? segment.address segment.size

def sectionStretches (file : File) : List AddressInterval :=
  ((file.sections.drop 1).filter (·.address != 0)).filterMap fun entry =>
    AddressInterval.ofStretch? entry.address (UInt64.ofNat entry.size)

/-- The on-disk addresses of all that is loaded: the segments, or the sections of a file whose
segments are empty. -/
def extent? (file : File) : Option AddressInterval :=
  (AddressInterval.hull? file.segmentStretches).or (AddressInterval.hull? file.sectionStretches)

end File

end Elf

end Symbolization
