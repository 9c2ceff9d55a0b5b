import Symbolization.Dwarf.Encoding

/-!
# Attribute values

The form of an attribute tells how its value is written and what class of value it is.  Values of
classes that no question of a session needs are passed over.
-/

namespace Symbolization

namespace Dwarf

structure AttributeName where
  code : Nat
  deriving DecidableEq, Repr

namespace AttributeName

def sibling : AttributeName := ⟨0x01⟩
def plainName : AttributeName := ⟨0x03⟩
def lineTable : AttributeName := ⟨0x10⟩
def lowAddress : AttributeName := ⟨0x11⟩
def highAddress : AttributeName := ⟨0x12⟩
def compilationDirectory : AttributeName := ⟨0x1b⟩
def abstractOrigin : AttributeName := ⟨0x31⟩
def declaration : AttributeName := ⟨0x3c⟩
def specification : AttributeName := ⟨0x47⟩
def ranges : AttributeName := ⟨0x55⟩
def callColumn : AttributeName := ⟨0x57⟩
def callFile : AttributeName := ⟨0x58⟩
def callLine : AttributeName := ⟨0x59⟩
def linkageName : AttributeName := ⟨0x6e⟩
def stringOffsetsBase : AttributeName := ⟨0x72⟩
def addressBase : AttributeName := ⟨0x73⟩
def rangeListsBase : AttributeName := ⟨0x74⟩
/-- The spelling of `linkageName` by producers older than its standard code. -/
def olderLinkageName : AttributeName := ⟨0x2007⟩
/-- The spelling of `rangeListsBase` by producers older than its standard code. -/
def olderRangesBase : AttributeName := ⟨0x2132⟩
/-- The spelling of `addressBase` by producers older than its standard code. -/
def olderAddressBase : AttributeName := ⟨0x2133⟩

/-- The attributes whose constants of the size of an offset are offsets into another section, as
they were written before offsets had a form of their own. -/
def takesOffset (name : AttributeName) : Bool := name == lineTable || name == ranges

end AttributeName

inductive Width where
  | bytes (count : Nat)
  | variable
  deriving DecidableEq, Repr

namespace Width

def read : Width → Reader Nat
  | .bytes count => .number count
  | .variable => .unsigned

end Width

inductive Form where
  | address
  | addressIndex (width : Width)
  | block (length : Width)
  | wideConstant
  | constant (width : Width)
  | signedConstant
  | implicitConstant
  | expression
  | flag
  | flagPresent
  | sectionOffset
  | unitReference (width : Width)
  | infoReference
  | typeReference
  | otherFileReference (width : Width)
  | otherFileReferenceByOffset
  | text
  | stringOffset
  | lineStringOffset
  | otherFileString
  | stringIndex (width : Width)
  | locationListIndex
  | rangeListIndex
  | indirect
  deriving DecidableEq, Repr

namespace Form

def ofCode? : Nat → Option Form
  | 0x01 => some .address
  | 0x03 => some (.block (.bytes 2))
  | 0x04 => some (.block (.bytes 4))
  | 0x05 => some (.constant (.bytes 2))
  | 0x06 => some (.constant (.bytes 4))
  | 0x07 => some (.constant (.bytes 8))
  | 0x08 => some .text
  | 0x09 => some (.block .variable)
  | 0x0a => some (.block (.bytes 1))
  | 0x0b => some (.constant (.bytes 1))
  | 0x0c => some .flag
  | 0x0d => some .signedConstant
  | 0x0e => some .stringOffset
  | 0x0f => some (.constant .variable)
  | 0x10 => some .infoReference
  | 0x11 => some (.unitReference (.bytes 1))
  | 0x12 => some (.unitReference (.bytes 2))
  | 0x13 => some (.unitReference (.bytes 4))
  | 0x14 => some (.unitReference (.bytes 8))
  | 0x15 => some (.unitReference .variable)
  | 0x16 => some .indirect
  | 0x17 => some .sectionOffset
  | 0x18 => some .expression
  | 0x19 => some .flagPresent
  | 0x1a => some (.stringIndex .variable)
  | 0x1b => some (.addressIndex .variable)
  | 0x1c => some (.otherFileReference (.bytes 4))
  | 0x1d => some .otherFileString
  | 0x1e => some .wideConstant
  | 0x1f => some .lineStringOffset
  | 0x20 => some .typeReference
  | 0x21 => some .implicitConstant
  | 0x22 => some .locationListIndex
  | 0x23 => some .rangeListIndex
  | 0x24 => some (.otherFileReference (.bytes 8))
  | 0x25 => some (.stringIndex (.bytes 1))
  | 0x26 => some (.stringIndex (.bytes 2))
  | 0x27 => some (.stringIndex (.bytes 3))
  | 0x28 => some (.stringIndex (.bytes 4))
  | 0x29 => some (.addressIndex (.bytes 1))
  | 0x2a => some (.addressIndex (.bytes 2))
  | 0x2b => some (.addressIndex (.bytes 3))
  | 0x2c => some (.addressIndex (.bytes 4))
  | 0x1f01 => some (.addressIndex .variable)
  | 0x1f02 => some (.stringIndex .variable)
  | 0x1f20 => some .otherFileReferenceByOffset
  | 0x1f21 => some .otherFileString
  | _ => none

/-- The code of the form that names the actual form in front of the value. -/
def indirectCode : Nat := 0x16

/-- The code of the form whose value stands in the abbreviation. -/
def implicitConstantCode : Nat := 0x21

/-- Whether the file and directory tables of a line program may use the form. -/
def isTableForm : Form → Bool
  | .block _ | .wideConstant | .constant _ | .signedConstant | .flag | .sectionOffset
  | .text | .stringOffset | .lineStringOffset | .otherFileString | .stringIndex _ => true
  | _ => false

end Form

inductive AttributeValue where
  | address (address : UInt64)
  | addressIndex (index : Nat)
  | constant (value : Nat)
  | signed (value : Int)
  | flag (isSet : Bool)
  | sectionOffset (offset : Nat)
  /-- An entry by its offset in the same unit. -/
  | unitReference (offset : Nat)
  /-- An entry by its offset in the section of all units. -/
  | infoReference (offset : Nat)
  | text (bytes : List UInt8)
  | stringOffset (offset : Nat)
  | lineStringOffset (offset : Nat)
  | stringIndex (index : Nat)
  | rangeListIndex (index : Nat)
  /-- A value that was passed over. -/
  | passedOver
  deriving DecidableEq, Repr

namespace AttributeValue

def unsigned? : AttributeValue → Option Nat
  | .constant value => some value
  | .signed value => if 0 ≤ value then some value.toNat else none
  | _ => none

def sectionOffset? : AttributeValue → Option Nat
  | .sectionOffset offset => some offset
  | _ => none

/-- A value that was read only to get behind it. -/
def ignore {α : Type} (reader : Reader α) : Reader AttributeValue := do
  let _ ← reader
  pure .passedOver

/-- A value in a form that is not indirect.  The form for values in the abbreviation takes `implicit`
and needs it to be there. -/
def read (encoding : Encoding) (implicit : Option Int) : Form → Reader AttributeValue
  | .address => do return .address (← encoding.readAddress)
  | .addressIndex width => do return .addressIndex (← width.read)
  | .block length => ignore do Reader.skip (← length.read)
  | .wideConstant => ignore (Reader.skip 16)
  | .constant width => do return .constant (← width.read)
  | .signedConstant => do return .signed (← Reader.signed)
  | .implicitConstant => do return .signed (← Reader.ofOption implicit)
  | .expression => ignore do Reader.skip (← Reader.unsigned)
  | .flag => do return .flag ((← Reader.byte) != 0)
  | .flagPresent => return .flag true
  | .sectionOffset => do return .sectionOffset (← encoding.readOffset)
  | .unitReference width => do return .unitReference (← width.read)
  | .infoReference => do
    if encoding.version = 2 then return .infoReference (← Reader.number encoding.addressSize)
    else return .infoReference (← encoding.readOffset)
  | .typeReference => ignore (Reader.skip 8)
  | .otherFileReference width => ignore width.read
  | .otherFileReferenceByOffset => ignore encoding.readOffset
  | .text => do return .text (← Reader.text)
  | .stringOffset => do return .stringOffset (← encoding.readOffset)
  | .lineStringOffset => do return .lineStringOffset (← encoding.readOffset)
  | .otherFileString => ignore encoding.readOffset
  | .stringIndex width => do return .stringIndex (← width.read)
  | .locationListIndex => ignore Reader.unsigned
  | .rangeListIndex => do return .rangeListIndex (← Reader.unsigned)
  | .indirect => Reader.fail

end AttributeValue

/-- A form code in front of a value: another indirection, or the code at their end. -/
def formCode : Reader (Unit ⊕ Nat) := do
  let code ← Reader.unsigned16
  pure (if code = Form.indirectCode then .inl () else .inr code)

/-- The form code behind any number of indirections. -/
def indirectFormCode : Reader Nat := do
  let codes ← Reader.untilStop formCode (Reader.unsigned16_consumes.bind _)
  pure codes.2

structure AttributeSpec where
  name : AttributeName
  formCode : Nat
  implicit : Option Int
  deriving DecidableEq, Repr

namespace AttributeSpec

def read (encoding : Encoding) (spec : AttributeSpec) : Reader AttributeValue := do
  let direct := spec.formCode != Form.indirectCode
  let code ← if direct then pure spec.formCode else indirectFormCode
  let form ← Reader.ofOption (Form.ofCode? code)
  let value ← AttributeValue.read encoding (if direct then spec.implicit else none) form
  match form, value with
  | .constant (.bytes count), .constant offset =>
    if count = encoding.offsetSize.bytes ∧ spec.name.takesOffset then return .sectionOffset offset
    else return value
  | _, _ => return value

end AttributeSpec

end Dwarf

end Symbolization
