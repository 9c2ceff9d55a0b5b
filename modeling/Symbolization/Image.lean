import Symbolization.Dwarf.DebugData
import Symbolization.Elf.Extent
import Symbolization.Error

/-!
# Images

An image is an object file placed at a bias: its runtime addresses are the on-disk ones plus the
bias, modulo 2^64.
-/

namespace Symbolization

structure Image where
  name : String
  bias : UInt64
  /-- The runtime address of its first byte. -/
  start : UInt64
  length : UInt64
  symbols : SymbolMap
  debug : Dwarf.DebugData

namespace Image

/-- The runtime address behind its last byte, or the greatest address if that is less. -/
def endAddress (image : Image) : UInt64 := addSaturating image.start image.length

def extent (image : Image) : AddressInterval := ⟨image.start, image.endAddress⟩

def has (image : Image) (address : UInt64) : Bool := image.extent.contains address

def onDisk (image : Image) (address : UInt64) : UInt64 := address - image.bias

def nearest? (image : Image) (address : UInt64) : Option ExportedSymbol :=
  image.symbols.find? (image.onDisk address)

def ofFile (name : String) (bias : UInt64) (file : Elf.File) : Except SymbolizeError Image :=
  match file.extent? with
  | none => .error (.noLoadableSegments name)
  | some extent =>
    .ok {
      name
      bias
      start := bias + extent.low
      length := extent.high - extent.low
      symbols := file.symbolMap
      debug := .ofSections (.ofNamed file.contents.endian file.sectionData) }

/-- Reads the image at a path. -/
def load (files : FileSource) (path : FilePath) (bias : UInt64) : Except SymbolizeError Image :=
  match files path with
  | .error error => .error (.file error)
  | .ok bytes =>
    if bytes.size = 0 then .error (.file .empty)
    else
      match Elf.File.parse bytes with
      | .error error => .error (.object error)
      | .ok file => ofFile path.told bias file

end Image

end Symbolization
