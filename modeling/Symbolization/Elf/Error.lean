/-!
# Faults of an object file

Each constructor is one way in which the bytes of a file fail to be an ELF image that can be read.
-/

namespace Symbolization

inductive ElfError where
  | unreadableMagic
  | unknownMagic
  | shortHeader
  | unsupportedHeader
  | segmentEntrySize
  | segmentTable
  | missingSectionForSegmentCount
  | sectionEntrySize
  | firstSection
  | sectionTable
  | missingSectionForNameIndex
  | missingNameSection
  | nameSectionIndex
  | nameSectionSize
  | symbolTable
  | sectionIndex
  | stringSectionType
  | stringSectionExtent
  | extendedIndexTable
  | relocationTarget
  | relocationOfRelocation
  deriving DecidableEq, Repr

namespace ElfError

def message : ElfError → String
  | .unreadableMagic => "Could not read file magic"
  | .unknownMagic => "Unknown file magic"
  | .shortHeader => "Invalid ELF header size or alignment"
  | .unsupportedHeader => "Unsupported ELF header"
  | .segmentEntrySize => "Invalid ELF program header entry size"
  | .segmentTable => "Invalid ELF program header size or alignment"
  | .missingSectionForSegmentCount => "Missing ELF section headers for e_phnum overflow"
  | .sectionEntrySize => "Invalid ELF section header entry size"
  | .firstSection => "Invalid ELF section header offset or size"
  | .sectionTable => "Invalid ELF section header offset/size/alignment"
  | .missingSectionForNameIndex => "Missing ELF section headers for e_shstrndx overflow"
  | .missingNameSection => "Missing ELF e_shstrndx"
  | .nameSectionIndex => "Invalid ELF e_shstrndx"
  | .nameSectionSize => "Invalid ELF shstrtab size"
  | .symbolTable => "Invalid ELF symbol table data"
  | .sectionIndex => "Invalid ELF section index"
  | .stringSectionType => "Invalid ELF string section type"
  | .stringSectionExtent => "Invalid ELF string section offset or size"
  | .extendedIndexTable => "Invalid ELF symtab_shndx data"
  | .relocationTarget => "Invalid ELF sh_info for relocation section"
  | .relocationOfRelocation => "Unsupported ELF sh_info for relocation section"

end ElfError

end Symbolization
