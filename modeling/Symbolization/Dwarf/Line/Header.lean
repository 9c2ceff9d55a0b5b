import Symbolization.Dwarf.Form

/-!
# Headers of line programs

The line program of a unit is preceded by a header with the numbers that its instructions depend
on and the tables of directories and files.  Up to version 4 the tables hold texts and count from
one; in version 5 they say by which forms they are written and count from zero.
-/

namespace Symbolization

namespace Dwarf

/-- A file of a line program: its name, and its directory by number. -/
structure FileEntry where
  name : AttributeValue
  directory : Nat
  deriving DecidableEq, Repr

namespace FileEntry

/-- What follows the name of a file up to version 4, of which only the directory is kept. -/
def readRest (name : List UInt8) : Reader FileEntry := do
  let directory ← Reader.unsigned
  let _modified ← Reader.unsigned
  let _size ← Reader.unsigned
  return ⟨.text name, directory⟩

/-- A file up to version 4, or nothing at the empty name that ends the table. -/
def readNamed : Reader (Option FileEntry) := do
  let name ← Reader.text
  if name.isEmpty then return none else return some (← readRest name)

/-- A directory up to version 4, or nothing at the empty name that ends the table. -/
def readDirectory : Reader (Option AttributeValue) := do
  let name ← Reader.text
  return if name.isEmpty then none else some (.text name)

end FileEntry

/-- One field of the entries of a table: what it holds and the code of its form. -/
structure FieldFormat where
  content : Nat
  formCode : Nat
  deriving DecidableEq, Repr

namespace FieldFormat

def path : Nat := 1

def directory : Nat := 2

def read : Reader FieldFormat := do return ⟨← Reader.unsigned, ← Reader.unsigned16⟩

/-- The fields of the entries of a table, of which exactly one holds a path. -/
def readAll : Reader (List FieldFormat) := do
  let count ← Reader.byte
  let fields ← Reader.replicate count.toNat read
  Reader.require ((fields.filter (·.content == path)).length == 1)
  return fields

def readValue (encoding : Encoding) (field : FieldFormat) : Reader AttributeValue := do
  let form ← Reader.ofOption (Form.ofCode? field.formCode)
  Reader.require form.isTableForm
  AttributeValue.read encoding none form

def store (field : FieldFormat) (value : AttributeValue) (entry : FileEntry) : FileEntry :=
  if field.content = path then { entry with name := value }
  else if field.content = directory then
    { entry with directory := value.unsigned?.getD entry.directory }
  else entry

def readEntry (encoding : Encoding) : List FieldFormat → FileEntry → Reader FileEntry
  | [], entry => pure entry
  | field :: fields, entry => do
    let value ← field.readValue encoding
    readEntry encoding fields (field.store value entry)

/-- A table with its fields and the number of its entries in front. -/
def readTable (encoding : Encoding) : Reader (List FileEntry) := do
  let fields ← readAll
  let count ← Reader.unsigned
  Reader.replicate count (readEntry encoding fields ⟨.text [], 0⟩)

end FieldFormat

/-- The header of a line program, with the place of the program. -/
structure LineHeader where
  encoding : Encoding
  /-- The number of bytes of the shortest instruction of the machine. -/
  instructionBytes : UInt64
  /-- The number of operations of an instruction of the machine. -/
  operations : UInt64
  lineBase : Int
  lineRange : Nat
  /-- The first opcode that is not a standard one. -/
  specialBase : Nat
  /-- The number of operands of each standard opcode. -/
  operands : List UInt8
  directories : List AttributeValue
  files : List FileEntry
  program : Cursor

namespace LineHeader

def positive : Reader Nat := do
  let value ← Reader.byte
  Reader.require (value != 0)
  return value.toNat

def signedByte : Reader Int := do
  let value ← Reader.byte
  return if value < 0x80 then value.toNat else value.toNat - 0x100

def readTables (encoding : Encoding) : Reader (List AttributeValue × List FileEntry) := do
  if encoding.version ≤ 4 then
    let directories ← Reader.untilNone FileEntry.readDirectory (Reader.text_consumes.bind _)
    let files ← Reader.untilNone FileEntry.readNamed (Reader.text_consumes.bind _)
    return (directories, files)
  else
    let directories ← FieldFormat.readTable encoding
    let files ← FieldFormat.readTable encoding
    return (directories.map (·.name), files)

def readFields (encoding : Encoding) (program : Cursor) : Reader LineHeader := do
  let instructionBytes ← positive
  let operations ← if encoding.version ≤ 3 then pure 1 else positive
  let _startsStatement ← Reader.byte
  let lineBase ← signedByte
  let lineRange ← positive
  let specialBase ← positive
  let operands ← Reader.replicate (specialBase - 1) Reader.byte
  let (directories, files) ← readTables encoding
  return {
    encoding
    instructionBytes := UInt64.ofNat instructionBytes
    operations := UInt64.ofNat operations
    lineBase
    lineRange
    specialBase
    operands
    directories
    files
    program }

def readAddressSize (version unitAddressSize : Nat) : Reader Nat := do
  if version ≤ 4 then return unitAddressSize
  else
    let size ← addressSize
    let segmentSize ← Reader.byte
    Reader.require (segmentSize == 0)
    return size

/-- A line program of the unit with the given size of addresses, behind its length. -/
def readBody (offsetSize : OffsetSize) (unitAddressSize : Nat) : Reader LineHeader := do
  let version ← Reader.number 2
  Reader.require (2 ≤ version && version ≤ 5)
  let addressSize ← readAddressSize version unitAddressSize
  let length ← offsetSize.read
  let fields ← Reader.stretch length
  let program ← Reader.rest
  Reader.ofOption (((readFields ⟨offsetSize, version, addressSize⟩ program).run fields).map (·.1))

def read (unitAddressSize : Nat) : Reader LineHeader := do
  let (length, offsetSize) ← initialLength
  Reader.within length (readBody offsetSize unitAddressSize)

/-- The directory with a number, where the unit itself was compiled in `home`. -/
def directory? (header : LineHeader) (home : Option (List UInt8)) (number : Nat) :
    Option AttributeValue :=
  if header.encoding.version ≤ 4 then
    match number with
    | 0 => home.map AttributeValue.text
    | index + 1 => header.directories[index]?
  else header.directories[number]?

/-- The file with a number, where `more` are the files that the program itself defined so far and
the unit itself was compiled from the file `primary`. -/
def file? (header : LineHeader) (primary : Option (List UInt8)) (more : List FileEntry)
    (number : Nat) : Option FileEntry :=
  let files := header.files ++ more
  if header.encoding.version ≤ 4 then
    match number with
    | 0 => primary.map fun name => ⟨.text name, 0⟩
    | index + 1 => files[index]?
  else files[number]?

end LineHeader

end Dwarf

end Symbolization
