import Symbolization.Bytes.Reader
import Symbolization.Elf.Error

/-!
# Contents of an object file

The first bytes of an object file tell its byte order and whether addresses and offsets take four
or eight bytes.  Everything else is read by that.  Of the formats of object files only ELF is known
here: files of all others, and archives, count as files without a known magic number.
-/

namespace Symbolization

namespace Elf

/-- Whether addresses and offsets take four or eight bytes. -/
inductive WordSize where
  | four
  | eight
  deriving DecidableEq, Repr

namespace WordSize

def ofByte? : UInt8 → Option WordSize
  | 1 => some .four
  | 2 => some .eight
  | _ => none

def read : WordSize → Reader Nat
  | .four => .number 4
  | .eight => .number 8

def headerBytes : WordSize → Nat
  | .four => 52
  | .eight => 64

def segmentBytes : WordSize → Nat
  | .four => 32
  | .eight => 56

def sectionBytes : WordSize → Nat
  | .four => 40
  | .eight => 64

def symbolBytes : WordSize → Nat
  | .four => 16
  | .eight => 24

end WordSize

/-- The bytes of an object file and how they are to be read. -/
structure Contents where
  bytes : ByteArray
  wordSize : WordSize
  endian : Endian

namespace Contents

def endianOfByte? : UInt8 → Option Endian
  | 1 => some .little
  | 2 => some .big
  | _ => none

def magic : List UInt8 := [0x7f, 0x45, 0x4c, 0x46]

def identificationBytes : Nat := 16

def identify (bytes : ByteArray) : Except ElfError Contents :=
  match (bytes.extract 0 identificationBytes).toList with
  | [first, second, third, fourth, size, order, version, _, _, _, _, _, _, _, _, _] =>
    match WordSize.ofByte? size with
    | none => .error .unknownMagic
    | some wordSize =>
      if [first, second, third, fourth] ≠ magic then .error .unknownMagic
      else if bytes.size < wordSize.headerBytes then .error .shortHeader
      else
        match endianOfByte? order with
        | none => .error .unsupportedHeader
        | some endian =>
          if version = 1 then .ok ⟨bytes, wordSize, endian⟩ else .error .unsupportedHeader
  | _ => .error .unreadableMagic

def cursor (contents : Contents) : Cursor := .start contents.bytes contents.endian

def read? {α : Type} (contents : Contents) (reader : Reader α) (offset : Nat) : Option α :=
  reader.at? contents.cursor offset

end Contents

/-- A stretch of the file that holds texts, each up to a zero byte. -/
structure TextTable where
  first : Nat
  last : Nat
  deriving DecidableEq, Repr

namespace TextTable

def text? (contents : Contents) (table : TextTable) (offset : Nat) : Option (List UInt8) := do
  let all ← contents.cursor.take? table.last
  Reader.text.at? all (table.first + offset)

end TextTable

end Elf

end Symbolization
