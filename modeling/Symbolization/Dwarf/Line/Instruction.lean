import Symbolization.Dwarf.Line.Header

/-!
# Instructions of line programs

A line program is a sequence of instructions that a small machine carries out.  Special opcodes
stand for a move of the address and the line that the header scales.  Unknown opcodes carry enough
with them to be passed over.
-/

namespace Symbolization

namespace Dwarf

inductive LineInstruction where
  /-- Moves the line and the address, and writes a row. -/
  | special (lines : Int) (operations : UInt64)
  | writeRow
  | advance (operations : UInt64)
  | advanceLine (lines : Int)
  | setFile (file : Nat)
  | setColumn (column : Nat)
  | advanceBytes (bytes : UInt64)
  | setAddress (address : UInt64)
  | defineFile (file : FileEntry)
  /-- Writes the row that ends the sequence. -/
  | endSequence
  /-- Sets what no question of a session needs. -/
  | noEffect
  deriving DecidableEq, Repr

namespace LineInstruction

/-- An instruction whose operands were read only to get behind them. -/
def ignore {α : Type} (reader : Reader α) : Reader LineInstruction := do
  let _ ← reader
  return .noEffect

def ofSpecial (header : LineHeader) (opcode : Nat) : LineInstruction :=
  let adjusted := opcode - header.specialBase
  .special (header.lineBase + (adjusted % header.lineRange : Nat))
    (UInt64.ofNat (adjusted / header.lineRange))

/-- The move of the address that the greatest special opcode makes. -/
def constantAdvance (header : LineHeader) : LineInstruction :=
  .advance (UInt64.ofNat ((255 - header.specialBase) / header.lineRange))

def readExtended (encoding : Encoding) : Reader LineInstruction := do
  match ← Reader.byte with
  | 1 => return .endSequence
  | 2 => return .setAddress (← encoding.readAddress)
  | 3 =>
    if encoding.version ≤ 4 then
      let name ← Reader.text
      return .defineFile (← FileEntry.readRest name)
    else return .noEffect
  | 4 => ignore Reader.unsigned
  | _ => return .noEffect

def readStandard (header : LineHeader) : (opcode : Nat) → Reader LineInstruction
  | 1 => return .writeRow
  | 2 => do return .advance (UInt64.ofNat (← Reader.unsigned))
  | 3 => do return .advanceLine (← Reader.signed)
  | 4 => do return .setFile (← Reader.unsigned)
  | 5 => do return .setColumn (← Reader.unsigned)
  | 6 | 7 | 10 | 11 => return .noEffect
  | 8 => return constantAdvance header
  | 9 => do return .advanceBytes (UInt64.ofNat (← Reader.number 2))
  | 12 => ignore Reader.unsigned
  | opcode => do
    let count ← Reader.ofOption header.operands[opcode - 1]?
    ignore (Reader.replicate count.toNat Reader.unsigned)

def read (header : LineHeader) : Reader LineInstruction := do
  let opcode ← Reader.byte
  if opcode = 0 then
    let length ← Reader.unsigned
    Reader.within length (readExtended header.encoding)
  else if header.specialBase ≤ opcode.toNat then return ofSpecial header opcode.toNat
  else readStandard header opcode.toNat

/-- An instruction of a program that only the end of its bytes ends. -/
def readNext (header : LineHeader) : Reader (Option LineInstruction) := do
  return some (← read header)

theorem readNext_consumes (header : LineHeader) : (readNext header).Consumes :=
  (Reader.byte_consumes.bind _).bind _

/-- The instructions of a program up to the first one that cannot be read. -/
def program (header : LineHeader) : List LineInstruction :=
  Reader.sequence (readNext header) (readNext_consumes header) header.program

end LineInstruction

end Dwarf

end Symbolization
