import Symbolization.Elf.Symbol

/-!
# Object files

An object file with everything that an image is made of.  Faults are reported in the order in
which the parts are read: header, segments, sections, symbols, dynamic symbols, relocations.
-/

namespace Symbolization

namespace Elf

/-- Why the relocations in a section cannot be assigned to the section they are for, if so.  Only
those that go with the symbol table count. -/
def relocationFault? (sections : List Section) (symbolSection : Nat) (entry : Section) :
    Option ElfError :=
  if entry.isRelocation && entry.link == symbolSection && entry.info != 0 then
    match sections[entry.info]? with
    | none => some .relocationTarget
    | some target => if target.isRelocation then some .relocationOfRelocation else none
  else none

structure File where
  contents : Contents
  segments : List Segment
  sections : List Section
  sectionNames : Option TextTable
  symbols : SymbolTable
  dynamicSymbols : SymbolTable

namespace File

/-- Reads an object file. -/
def parse (bytes : ByteArray) : Except ElfError File := do
  let contents ← Contents.identify bytes
  match contents.read? (Header.read contents.wordSize) Contents.identificationBytes with
  | none => .error .shortHeader
  | some header =>
    let segments ← contents.segments header
    let sections ← contents.sections header
    let sectionNames ← contents.sectionNames header sections
    let symbols ← SymbolTable.ofKind contents sections Section.symbolTableKind
    let dynamicSymbols ← SymbolTable.ofKind contents sections Section.dynamicSymbolTableKind
    match sections.reverse.findSome? (relocationFault? sections symbols.sectionIndex) with
    | some fault => .error fault
    | none => return ⟨contents, segments, sections, sectionNames, symbols, dynamicSymbols⟩

/-- The bytes of the first section of a name as they are stored, none if there is no such section or
it cannot be read.  A section that is stored compressed (`SHF_COMPRESSED`, or under a name with
`.zdebug_`) is not expanded. -/
def sectionData (file : File) (name : String) : ByteArray :=
  let isNamed (entry : Section) : Bool :=
    (file.sectionNames.bind fun names => names.text? file.contents entry.name)
      == some name.toUTF8.toList
  match file.sections.find? isNamed with
  | none => .empty
  | some entry => (entry.data? file.contents).getD .empty

/-- The map of the symbols, or of the dynamic ones if there are no others. -/
def symbolMap (file : File) : SymbolMap :=
  if file.symbols.symbols.isEmpty then file.dynamicSymbols.map file.contents
  else file.symbols.map file.contents

end File

end Elf

end Symbolization
