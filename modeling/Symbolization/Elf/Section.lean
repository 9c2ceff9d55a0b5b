import Symbolization.Elf.Contents

/-!
# Headers, segments and sections

The header gives the places of two tables: of the segments, which are what a program loads, and of
the sections, which are what linkers and debuggers read.  Counts too great for the header stand in
the first section.
-/

namespace Symbolization

namespace Elf

structure Header where
  segmentOffset : Nat
  sectionOffset : Nat
  segmentBytes : Nat
  segmentCount : Nat
  sectionBytes : Nat
  sectionCount : Nat
  nameSection : Nat
  deriving DecidableEq, Repr

namespace Header

def read (wordSize : WordSize) : Reader Header := do
  Reader.skip 8
  let _entry ← wordSize.read
  let segmentOffset ← wordSize.read
  let sectionOffset ← wordSize.read
  Reader.skip 6
  return {
    segmentOffset
    sectionOffset
    segmentBytes := ← Reader.number 2
    segmentCount := ← Reader.number 2
    sectionBytes := ← Reader.number 2
    sectionCount := ← Reader.number 2
    nameSection := ← Reader.number 2 }

end Header

/-- A stretch of memory that a program loads or reserves. -/
structure Segment where
  kind : Nat
  address : UInt64
  size : UInt64
  deriving DecidableEq, Repr

namespace Segment

def read : WordSize → Reader Segment
  | .four => do
    let kind ← Reader.number 4
    Reader.skip 4
    let address ← Reader.number 4
    Reader.skip 8
    let size ← Reader.number 4
    Reader.skip 8
    return ⟨kind, UInt64.ofNat address, UInt64.ofNat size⟩
  | .eight => do
    let kind ← Reader.number 4
    Reader.skip 12
    let address ← Reader.number 8
    Reader.skip 16
    let size ← Reader.number 8
    Reader.skip 8
    return ⟨kind, UInt64.ofNat address, UInt64.ofNat size⟩

def isLoadable (segment : Segment) : Bool := segment.kind == 1

end Segment

structure Section where
  name : Nat
  kind : Nat
  address : UInt64
  offset : Nat
  size : Nat
  link : Nat
  info : Nat
  deriving DecidableEq, Repr

namespace Section

def read (wordSize : WordSize) : Reader Section := do
  let name ← Reader.number 4
  let kind ← Reader.number 4
  let _flags ← wordSize.read
  let address ← wordSize.read
  let offset ← wordSize.read
  let size ← wordSize.read
  let link ← Reader.number 4
  let info ← Reader.number 4
  let _alignment ← wordSize.read
  let _entryBytes ← wordSize.read
  return ⟨name, kind, UInt64.ofNat address, offset, size, link, info⟩

/-- The kinds of sections that matter here, by their codes. -/
def symbolTableKind : Nat := 2
def textTableKind : Nat := 3
def relocationWithAddendKind : Nat := 4
def withoutBytesKind : Nat := 8
def relocationKind : Nat := 9
def dynamicSymbolTableKind : Nat := 11
def extendedIndexKind : Nat := 18

def isRelocation (entry : Section) : Bool :=
  entry.kind == relocationKind || entry.kind == relocationWithAddendKind

/-- The bytes of the section, none for one that only takes up memory; absent if they reach beyond
the file. -/
def data? (contents : Contents) (entry : Section) : Option ByteArray :=
  if entry.kind = withoutBytesKind then some .empty
  else if entry.offset + entry.size ≤ contents.bytes.size then
    some (contents.bytes.extract entry.offset (entry.offset + entry.size))
  else none

def textTable? (entry : Section) : Option TextTable :=
  if entry.kind = withoutBytesKind then none
  else some ⟨entry.offset, entry.offset + entry.size⟩

end Section

namespace Contents

/-- The section that holds what is too great for the header, if there are sections. -/
def firstSection (contents : Contents) (header : Header) : Except ElfError (Option Section) :=
  if header.sectionOffset = 0 then .ok none
  else if header.sectionBytes ≠ contents.wordSize.sectionBytes then .error .sectionEntrySize
  else
    match contents.read? (Section.read contents.wordSize) header.sectionOffset with
    | none => .error .firstSection
    | some entry => .ok (some entry)

def segmentCount (contents : Contents) (header : Header) : Except ElfError Nat := do
  if header.segmentCount < 0xffff then return header.segmentCount
  match ← contents.firstSection header with
  | none => .error .missingSectionForSegmentCount
  | some first => return first.info

def segments (contents : Contents) (header : Header) : Except ElfError (List Segment) := do
  if header.segmentOffset = 0 then return []
  let count ← contents.segmentCount header
  if count = 0 then return []
  if header.segmentBytes ≠ contents.wordSize.segmentBytes then .error .segmentEntrySize
  match contents.read? (Reader.replicate count (Segment.read contents.wordSize))
      header.segmentOffset with
  | none => .error .segmentTable
  | some segments => return segments

def sectionCount (contents : Contents) (header : Header) : Except ElfError Nat := do
  if 0 < header.sectionCount then return header.sectionCount
  match ← contents.firstSection header with
  | none => return 0
  | some first => return first.size

def sections (contents : Contents) (header : Header) : Except ElfError (List Section) := do
  if header.sectionOffset = 0 then return []
  let count ← contents.sectionCount header
  if count = 0 then return []
  if header.sectionBytes ≠ contents.wordSize.sectionBytes then .error .sectionEntrySize
  match contents.read? (Reader.replicate count (Section.read contents.wordSize))
      header.sectionOffset with
  | none => .error .sectionTable
  | some sections => return sections

def nameSection (contents : Contents) (header : Header) : Except ElfError Nat := do
  if header.nameSection ≠ 0xffff then return header.nameSection
  match ← contents.firstSection header with
  | none => .error .missingSectionForNameIndex
  | some first => return first.link

/-- The names of the sections.  A file with sections has names for them. -/
def sectionNames (contents : Contents) (header : Header) (sections : List Section) :
    Except ElfError (Option TextTable) := do
  if sections.isEmpty then return none
  let index ← contents.nameSection header
  if index = 0 then .error .missingNameSection
  match sections[index]? with
  | none => .error .nameSectionIndex
  | some entry =>
    match entry.textTable? with
    | none => return none
    | some table => if table.last < UInt64.size then return some table else .error .nameSectionSize

end Contents

end Elf

end Symbolization
