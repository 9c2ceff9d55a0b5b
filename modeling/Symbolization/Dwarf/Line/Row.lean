import Symbolization.Dwarf.Line.Instruction

/-!
# Rows of line programs

Carrying out the instructions of a line program gives rows: from its address up to that of the
next row of its sequence, a row tells the position in the source.  The address of code that the
linker dropped starts a stretch of which no row is written.
-/

namespace Symbolization

namespace Dwarf

structure LineRow where
  address : UInt64
  file : Nat
  line : UInt64
  column : Nat
  /-- Whether the row only marks the end of its sequence. -/
  endsSequence : Bool
  /-- The files that the program had defined when the row was written. -/
  defined : List FileEntry
  deriving DecidableEq, Repr

structure LineRegisters where
  address : UInt64
  operation : UInt64
  file : Nat
  line : UInt64
  column : Nat
  /-- Whether the code at hand was dropped. -/
  isDropped : Bool
  defined : List FileEntry
  deriving DecidableEq, Repr

namespace LineRegisters

def start (defined : List FileEntry) : LineRegisters := ⟨0, 0, 1, 1, 0, false, defined⟩

def row (registers : LineRegisters) (endsSequence : Bool) : LineRow :=
  ⟨registers.address, registers.file, registers.line, registers.column, endsSequence,
    registers.defined⟩

/-- Moves the line.  It stops at zero on its way back and wraps on its way forward. -/
def advanceLine (registers : LineRegisters) (lines : Int) : LineRegisters :=
  { registers with
    line :=
      if lines < 0 then UInt64.ofNat (registers.line.toNat - lines.natAbs)
      else registers.line + UInt64.ofNat lines.toNat }

/-- Moves the address by bytes, unless that leads beyond the greatest address. -/
def advanceBytes? (header : LineHeader) (registers : LineRegisters) (bytes : UInt64) :
    Option LineRegisters :=
  (header.encoding.add? registers.address bytes).map fun address => { registers with address }

/-- Moves the address by operations of the machine, of which an instruction may hold several. -/
def advance? (header : LineHeader) (registers : LineRegisters) (operations : UInt64) :
    Option LineRegisters :=
  if registers.isDropped then some registers
  else if header.operations = 1 then
    { registers with operation := 0 }.advanceBytes? header (header.instructionBytes * operations)
  else
    let total := registers.operation + operations
    { registers with operation := total % header.operations }.advanceBytes? header
      (header.instructionBytes * (total / header.operations))

/-- Sets the address, or notes that the code there was dropped: its address is less than the one
before, or the greatest of all. -/
def setAddress (header : LineHeader) (registers : LineRegisters) (address : UInt64) :
    LineRegisters :=
  if address < registers.address ∨ address = header.encoding.greatestAddress then
    { registers with isDropped := true }
  else { registers with isDropped := false, address, operation := 0 }

/-- Carries out one instruction.  Answers the registers behind it, and the row if one is written;
nothing if the address would leave its range. -/
def execute? (header : LineHeader) (registers : LineRegisters) :
    LineInstruction → Option (Option LineRow × LineRegisters)
  | .special lines operations => do
    let registers ← (registers.advanceLine lines).advance? header operations
    some (some (registers.row false), registers)
  | .writeRow => some (some (registers.row false), registers)
  | .advance operations => do
    let registers ← registers.advance? header operations
    some (none, registers)
  | .advanceLine lines => some (none, registers.advanceLine lines)
  | .setFile file => some (none, { registers with file })
  | .setColumn column => some (none, { registers with column })
  | .advanceBytes bytes =>
    if registers.isDropped then some (none, registers)
    else do
      let registers ← { registers with operation := 0 }.advanceBytes? header bytes
      some (none, registers)
  | .setAddress address => some (none, registers.setAddress header address)
  | .defineFile file => some (none, { registers with defined := registers.defined ++ [file] })
  | .endSequence => some (some (registers.row true), .start registers.defined)
  | .noEffect => some (none, registers)

/-- The rows that instructions write, up to one that cannot be carried out.  Rows of dropped code
are left out. -/
def rows (header : LineHeader) : LineRegisters → List LineInstruction → List LineRow
  | _, [] => []
  | registers, instruction :: instructions =>
    match registers.execute? header instruction with
    | none => []
    | some (row, next) =>
      (if registers.isDropped then [] else row.toList) ++ rows header next instructions

end LineRegisters

namespace LineRow

def all (header : LineHeader) : List LineRow :=
  LineRegisters.rows header (.start []) (LineInstruction.program header)

/-- The first row that covers an address, and the row after it.  A row covers the addresses from
its own up to that of the next row, unless it ends its sequence. -/
def covering? (address : UInt64) : List LineRow → Option (LineRow × LineRow)
  | row :: next :: rows =>
    if !row.endsSequence && row.address ≤ address && address < next.address then some (row, next)
    else covering? address (next :: rows)
  | _ => none

end LineRow

end Dwarf

end Symbolization
