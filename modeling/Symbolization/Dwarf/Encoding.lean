import Symbolization.Bytes.Leb128

/-!
# Sizes in debug data

Each contribution to a debug section says how it is written: with offsets of four or eight bytes,
by which version of the standard, and with addresses of how many bytes.
-/

namespace Symbolization

namespace Dwarf

/-- Whether lengths and offsets take four or eight bytes. -/
inductive OffsetSize where
  | four
  | eight
  deriving DecidableEq, Repr

namespace OffsetSize

def bytes : OffsetSize → Nat
  | .four => 4
  | .eight => 8

/-- The number of bytes of the length at the start of a contribution. -/
def lengthBytes : OffsetSize → Nat
  | .four => 4
  | .eight => 12

def read (size : OffsetSize) : Reader Nat := .number size.bytes

end OffsetSize

/-- The length at the start of a contribution, which also tells the size of offsets. -/
def initialLength : Reader (Nat × OffsetSize) := do
  let length ← Reader.number 4
  if length < 0xfffffff0 then pure (length, .four)
  else if length = 0xffffffff then do
    let length ← Reader.number 8
    pure (length, .eight)
  else Reader.fail

theorem initialLength_consumes : initialLength.Consumes :=
  (Reader.number_consumes (by decide)).bind _

/-- The size of an address, which must be one, two, four or eight bytes. -/
def addressSize : Reader Nat := do
  let size ← Reader.byte
  if size = 1 ∨ size = 2 ∨ size = 4 ∨ size = 8 then pure size.toNat else Reader.fail

structure Encoding where
  offsetSize : OffsetSize
  version : Nat
  addressSize : Nat
  deriving DecidableEq, Repr

namespace Encoding

def readAddress (encoding : Encoding) : Reader UInt64 := do
  let address ← Reader.number encoding.addressSize
  pure (UInt64.ofNat address)

def readOffset (encoding : Encoding) : Reader Nat := encoding.offsetSize.read

/-- The greatest address, which has all bits set. -/
def greatestAddress (encoding : Encoding) : UInt64 :=
  UInt64.ofNat (1 <<< (8 * encoding.addressSize) - 1)

/-- The sum of two addresses modulo the range of addresses. -/
def addWrapping (encoding : Encoding) (address length : UInt64) : UInt64 :=
  (address + length) &&& encoding.greatestAddress

def add? (encoding : Encoding) (address length : UInt64) : Option UInt64 :=
  if address.toNat + length.toNat ≤ encoding.greatestAddress.toNat then some (address + length)
  else none

end Encoding

end Dwarf

end Symbolization
