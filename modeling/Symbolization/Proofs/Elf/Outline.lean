import Symbolization.Proofs.Elf.Places

/-!
# Files that differ in their debug data

The header and the table of sections of a file tell which of its places belong to the contents of
debug sections and to nothing else.  A file with other bytes at such places has the same segments
and sections, and if the symbols are not among the debug data it has the same symbol map.  If the
one cannot be read, the other one cannot for the same reason.
-/

namespace Symbolization

/-- Both outcomes are the same error, or they are related values. -/
inductive SameOutcome {ε α β : Type} (related : α → β → Prop) :
    Except ε α → Except ε β → Prop where
  | error (error : ε) : SameOutcome related (.error error) (.error error)
  | ok {left : α} {right : β} : related left right → SameOutcome related (.ok left) (.ok right)

namespace SameOutcome

theorem of_map_eq {ε α β γ : Type} {f : α → γ} {g : β → γ} {left : Except ε α}
    {right : Except ε β} (same : left.map f = right.map g) :
    SameOutcome (fun value other => f value = g other) left right := by
  cases left with
  | error error =>
      cases right with
      | error other =>
          cases same
          exact .error error
      | ok value => contradiction
  | ok value =>
      cases right with
      | error other => contradiction
      | ok other => exact .ok (Except.ok.inj same)

theorem split {ε α β : Type} {related : α → β → Prop} {left : Except ε α} {right : Except ε β}
    (same : SameOutcome related left right) :
    (∃ error, left = .error error ∧ right = .error error) ∨
      ∃ value other, left = .ok value ∧ right = .ok other ∧ related value other := by
  cases same with
  | error error => exact .inl ⟨error, rfl, rfl⟩
  | ok values => exact .inr ⟨_, _, rfl, rfl, values⟩

end SameOutcome

namespace Elf

namespace Contents

/-- A file whose first bytes are the same is read in the same way. -/
theorem identify_withBytes {left right : ByteArray} {contents : Contents}
    (identified : identify left = .ok contents) (size : right.size = left.size)
    (same : ∀ place, place < identificationBytes → left[place]? = right[place]?) :
    contents.bytes = left ∧ identify right = .ok (contents.withBytes right) := by
  have start : right.extract 0 identificationBytes = left.extract 0 identificationBytes :=
    extract_congr size fun place _ before => same place before
  unfold identify at identified ⊢
  rw [start, size]
  generalize (left.extract 0 identificationBytes).toList = first at identified ⊢
  split at identified
  · split at identified
    · contradiction
    · split at identified
      · contradiction
      · rename_i magical
        rw [if_neg magical]
        split at identified
        · contradiction
        · rename_i long
          rw [if_neg long]
          split at identified
          · contradiction
          · split at identified
            · rename_i current
              rw [if_pos current]
              cases identified
              exact ⟨rfl, rfl⟩
            · contradiction
  · contradiction

end Contents

/-- The parts of an object file that tell where all others are. -/
structure Outline (bytes : ByteArray) where
  contents : Contents
  header : Header
  sections : List Section
  names : Option TextTable
  identify_eq : Contents.identify bytes = .ok contents
  header_eq : contents.read? (Header.read contents.wordSize) Contents.identificationBytes =
    some header
  sections_eq : contents.sections header = .ok sections
  names_eq : contents.sectionNames header sections = .ok names

namespace Outline

/-- What the names of debug sections start with. -/
def debugPrefix : List UInt8 := ".debug_".toUTF8.toList

variable {bytes : ByteArray} (outline : Outline bytes)

def IsDebug (entry : Section) : Prop :=
  ∃ name, (outline.names.bind fun names => names.text? outline.contents entry.name) = some name ∧
    debugPrefix <+: name

/-- The place lies in a table with that many entries at the offset, where zero stands for none. -/
def InTable (offset entryBytes : Nat) (count : Except ElfError Nat) (place : Nat) : Prop :=
  offset ≠ 0 ∧
    ∃ entries, count = .ok entries ∧ offset ≤ place ∧ place < offset + entries * entryBytes

def InSegmentTable (place : Nat) : Prop :=
  InTable outline.header.segmentOffset outline.contents.wordSize.segmentBytes
    (outline.contents.segmentCount outline.header) place

def InSectionTable (place : Nat) : Prop :=
  InTable outline.header.sectionOffset outline.contents.wordSize.sectionBytes
    (outline.contents.sectionCount outline.header) place

/-- The place lies in the contents of debug sections and in no other part of the file.  Sections may
share places, with one another and with the header and the tables. -/
structure InDebugData (place : Nat) : Prop where
  held : ∃ entry ∈ outline.sections, entry.Holds place
  debug : ∀ entry ∈ outline.sections, entry.Holds place → outline.IsDebug entry
  header : outline.contents.wordSize.headerBytes ≤ place
  segmentTable : ¬ outline.InSegmentTable place
  sectionTable : ¬ outline.InSectionTable place

theorem exists_sectionCount {entry : Section} (member : entry ∈ outline.sections) :
    ∃ count, outline.contents.sectionCount outline.header = .ok count ∧ 1 ≤ count := by
  have listed := outline.sections_eq
  have notEmpty : Except.ok [] ≠ (Except.ok outline.sections : Except ElfError _) := by
    intro empty
    rw [← Except.ok.inj empty] at member
    contradiction
  simp only [Contents.sections] at listed
  by_cases noTable : outline.header.sectionOffset = 0
  · rw [if_pos noTable] at listed
    exact absurd listed notEmpty
  · rw [if_neg noTable] at listed
    cases counted : outline.contents.sectionCount outline.header with
    | error error =>
        rw [counted] at listed
        contradiction
    | ok count =>
        refine ⟨count, rfl, Nat.one_le_iff_ne_zero.mpr ?_⟩
        rintro rfl
        rw [counted] at listed
        exact notEmpty listed

/-- There are as many other bytes, which differ in the contents of debug sections only. -/
structure Keeps (other : ByteArray) : Prop where
  size : other.size = bytes.size
  inDebugData : ∀ place, bytes[place]? ≠ other[place]? → outline.InDebugData place

namespace Keeps

variable {left right : ByteArray} {outline : Outline left} (keeps : outline.Keeps right)
include keeps

/-- A place that belongs to some part other than the debug data has the same byte. -/
theorem same {place : Nat} (other : ¬ outline.InDebugData place) : left[place]? = right[place]? :=
  Classical.not_not.mp fun differs => other (keeps.inDebugData place differs)

theorem identify : outline.contents.bytes = left ∧
    Contents.identify right = .ok (outline.contents.withBytes right) := by
  apply Contents.identify_withBytes outline.identify_eq keeps.size
  intro place before
  apply keeps.same
  intro inDebug
  have header := inDebug.header
  have long : Contents.identificationBytes ≤ outline.contents.wordSize.headerBytes := by
    cases outline.contents.wordSize <;> decide
  omega

theorem bytes_eq : outline.contents.bytes = left := keeps.identify.1

theorem size_eq : right.size = outline.contents.bytes.size := by
  rw [keeps.bytes_eq, keeps.size]

/-- What is read from a part other than the debug data is the same. -/
theorem read?_eq {α : Type} {reader : Reader α} {offset count : Nat} (takes : reader.Takes count)
    (apart : ∀ place, offset ≤ place → place < offset + count → ¬ outline.InDebugData place) :
    (outline.contents.withBytes right).read? reader offset =
      outline.contents.read? reader offset := by
  apply Contents.read?_withBytes keeps.size_eq takes
  intro place behind before
  rw [keeps.bytes_eq]
  exact keeps.same (apart place behind before)

theorem header_eq : (outline.contents.withBytes right).read?
    (Header.read outline.contents.wordSize) Contents.identificationBytes = some outline.header := by
  rw [← outline.header_eq]
  apply keeps.read?_eq (Header.takes_read _)
  intro place _ before inDebug
  have header := inDebug.header
  omega

theorem firstSection_eq :
    (outline.contents.withBytes right).firstSection outline.header =
      outline.contents.firstSection outline.header := by
  by_cases noTable : outline.header.sectionOffset = 0
  · simp only [Contents.firstSection, noTable, if_true]
  · have read := keeps.read?_eq (Section.takes_read outline.contents.wordSize) (by
      intro place (behind : outline.header.sectionOffset ≤ place) before inDebug
      obtain ⟨entry, member, _⟩ := inDebug.held
      obtain ⟨count, counted, positive⟩ := outline.exists_sectionCount member
      refine inDebug.sectionTable ⟨noTable, count, counted, behind, ?_⟩
      have one := Nat.mul_le_mul_right outline.contents.wordSize.sectionBytes positive
      omega)
    simp only [Contents.firstSection, Contents.wordSize_withBytes, read]

theorem segmentCount_eq :
    (outline.contents.withBytes right).segmentCount outline.header =
      outline.contents.segmentCount outline.header := by
  simp only [Contents.segmentCount, keeps.firstSection_eq]

theorem sectionCount_eq :
    (outline.contents.withBytes right).sectionCount outline.header =
      outline.contents.sectionCount outline.header := by
  simp only [Contents.sectionCount, keeps.firstSection_eq]

theorem segments_eq :
    (outline.contents.withBytes right).segments outline.header =
      outline.contents.segments outline.header := by
  simp only [Contents.segments, keeps.segmentCount_eq]
  by_cases noTable : outline.header.segmentOffset = 0
  · simp only [noTable, if_true]
  · cases counted : outline.contents.segmentCount outline.header with
    | error error => rfl
    | ok count =>
        have read := keeps.read?_eq ((Segment.takes_read outline.contents.wordSize).replicate count)
          fun place behind before inDebug =>
            inDebug.segmentTable ⟨noTable, count, counted, behind, before⟩
        simp only [bind, Except.bind, Contents.wordSize_withBytes, read]

theorem sections_eq :
    (outline.contents.withBytes right).sections outline.header = .ok outline.sections := by
  rw [← outline.sections_eq]
  simp only [Contents.sections, keeps.sectionCount_eq]
  by_cases noTable : outline.header.sectionOffset = 0
  · simp only [noTable, if_true]
  · cases counted : outline.contents.sectionCount outline.header with
    | error error => rfl
    | ok count =>
        have read := keeps.read?_eq ((Section.takes_read outline.contents.wordSize).replicate count)
          fun place behind before inDebug =>
            inDebug.sectionTable ⟨noTable, count, counted, behind, before⟩
        simp only [bind, Except.bind, Contents.wordSize_withBytes, read]

theorem sectionNames_eq :
    (outline.contents.withBytes right).sectionNames outline.header outline.sections =
      .ok outline.names := by
  rw [← outline.names_eq]
  simp only [Contents.sectionNames, Contents.nameSection, keeps.firstSection_eq]

end Keeps

end Outline

namespace File

def namingTable (file : File) : SymbolTable :=
  if file.symbols.symbols.isEmpty then file.dynamicSymbols else file.symbols

theorem symbolMap_eq (file : File) : file.symbolMap = file.namingTable.map file.contents := by
  rw [symbolMap, namingTable]
  split <;> rfl

/-- The symbol map is the same where the bytes are that it is made of. -/
theorem symbolMap_withBytes {file other : File} {bytes : ByteArray}
    (size : bytes.size = file.contents.bytes.size)
    (contents : other.contents = file.contents.withBytes bytes)
    (symbols : SymbolTable.ofKind file.contents file.sections Section.symbolTableKind =
      .ok file.symbols)
    (otherSymbols : SymbolTable.ofKind (file.contents.withBytes bytes) file.sections
      Section.symbolTableKind = .ok other.symbols)
    (dynamic : SymbolTable.ofKind file.contents file.sections Section.dynamicSymbolTableKind =
      .ok file.dynamicSymbols)
    (otherDynamic : SymbolTable.ofKind (file.contents.withBytes bytes) file.sections
      Section.dynamicSymbolTableKind = .ok other.dynamicSymbols)
    (same : ∀ place, file.namingTable.Holds file.sections place →
      file.contents.bytes[place]? = bytes[place]?) :
    other.symbolMap = file.symbolMap := by
  have shapes := SymbolTable.map_shape_ofKind_withBytes size file.sections Section.symbolTableKind
  rw [symbols, otherSymbols] at shapes
  have lengths : other.symbols.symbols.length = file.symbols.symbols.length :=
    congrArg (·.2.1) (Except.ok.inj shapes)
  have empty : other.symbols.symbols.isEmpty = file.symbols.symbols.isEmpty := by
    rw [Bool.eq_iff_iff, List.isEmpty_iff_length_eq_zero, List.isEmpty_iff_length_eq_zero, lengths]
  rw [symbolMap_eq, symbolMap_eq, contents]
  simp only [namingTable, empty] at same ⊢
  split
  · rename_i noSymbols
    rw [if_pos noSymbols] at same
    exact SymbolTable.map_eq_of_same size dynamic otherDynamic same
  · rename_i someSymbols
    rw [if_neg someSymbols] at same
    exact SymbolTable.map_eq_of_same size symbols otherSymbols same

/-- The file of the right bytes has the segments and the sections of the one of the left bytes, and
its symbol map too if the bytes that this is made of are the same. -/
structure Reproduces (left right : ByteArray) (file other : File) : Prop where
  segments : other.segments = file.segments
  sections : other.sections = file.sections
  symbolMap : (∀ place, file.namingTable.Holds file.sections place →
    left[place]? = right[place]?) → other.symbolMap = file.symbolMap

theorem Reproduces.refl (bytes : ByteArray) (file : File) : Reproduces bytes bytes file file :=
  ⟨rfl, rfl, fun _ => rfl⟩

end File

/-- Both files can be read, or neither can for the same reason. -/
theorem Outline.Keeps.parse {left right : ByteArray} {outline : Outline left}
    (keeps : outline.Keeps right) :
    SameOutcome (File.Reproduces left right) (File.parse left) (File.parse right) := by
  simp only [File.parse, outline.identify_eq, keeps.identify.2, outline.header_eq, keeps.header_eq,
    outline.sections_eq, keeps.sections_eq, outline.names_eq, keeps.sectionNames_eq,
    keeps.segments_eq, bind, Except.bind, Contents.wordSize_withBytes]
  cases outline.contents.segments outline.header with
  | error error => exact .error error
  | ok segments =>
      have symbolShapes := SymbolTable.map_shape_ofKind_withBytes keeps.size_eq outline.sections
        Section.symbolTableKind
      have dynamicShapes := SymbolTable.map_shape_ofKind_withBytes keeps.size_eq outline.sections
        Section.dynamicSymbolTableKind
      obtain ⟨error, there, here⟩ | ⟨symbols', symbols, there, here, shape⟩ :=
        (SameOutcome.of_map_eq symbolShapes).split
      · simp only [here, there]
        exact .error error
      obtain ⟨error, dynamicThere, dynamicHere⟩ |
          ⟨dynamic', dynamic, dynamicThere, dynamicHere, dynamicShape⟩ :=
        (SameOutcome.of_map_eq dynamicShapes).split
      · simp only [here, there, dynamicHere, dynamicThere]
        exact .error error
      have index : symbols'.sectionIndex = symbols.sectionIndex := congrArg (·.1) shape
      simp only [here, there, dynamicHere, dynamicThere, index]
      cases outline.sections.reverse.findSome?
          (relocationFault? outline.sections symbols.sectionIndex) with
      | some fault => exact .error fault
      | none =>
          refine .ok ⟨rfl, rfl, ?_⟩
          intro same
          refine File.symbolMap_withBytes keeps.size_eq rfl here there dynamicHere dynamicThere ?_
          intro place held
          rw [keeps.bytes_eq]
          exact same place held

/-- What is read from a file are the parts that its outline tells of. -/
theorem Outline.tables_of_parse {bytes : ByteArray} (outline : Outline bytes) {file : File}
    (parsed : File.parse bytes = .ok file) :
    file.sections = outline.sections ∧
      SymbolTable.ofKind outline.contents outline.sections Section.symbolTableKind =
        .ok file.symbols ∧
      SymbolTable.ofKind outline.contents outline.sections Section.dynamicSymbolTableKind =
        .ok file.dynamicSymbols := by
  simp only [File.parse, outline.identify_eq, outline.header_eq, outline.sections_eq,
    outline.names_eq, bind, Except.bind] at parsed
  cases segmented : outline.contents.segments outline.header with
  | error error =>
      rw [segmented] at parsed
      contradiction
  | ok segments =>
      rw [segmented] at parsed
      dsimp only at parsed
      cases symbols : SymbolTable.ofKind outline.contents outline.sections
          Section.symbolTableKind with
      | error error =>
          rw [symbols] at parsed
          contradiction
      | ok table =>
          rw [symbols] at parsed
          cases dynamic : SymbolTable.ofKind outline.contents outline.sections
              Section.dynamicSymbolTableKind with
          | error error =>
              rw [dynamic] at parsed
              contradiction
          | ok dynamicTable =>
              simp only [dynamic] at parsed
              cases fault : outline.sections.reverse.findSome?
                  (relocationFault? outline.sections table.sectionIndex) with
              | some error =>
                  rw [fault] at parsed
                  contradiction
              | none =>
                  rw [fault] at parsed
                  cases parsed
                  exact ⟨rfl, rfl, rfl⟩

/-- The files are the same but for the contents of debug sections. -/
def SameButDebug (left right : ByteArray) : Prop :=
  left = right ∨ ∃ outline : Outline left, outline.Keeps right

theorem SameButDebug.size_eq {left right : ByteArray} (same : SameButDebug left right) :
    right.size = left.size := by
  obtain rfl | ⟨_, keeps⟩ := same
  · rfl
  · exact keeps.size

theorem SameButDebug.parse {left right : ByteArray} (same : SameButDebug left right) :
    SameOutcome (File.Reproduces left right) (File.parse left) (File.parse right) := by
  obtain rfl | ⟨_, keeps⟩ := same
  · cases File.parse left with
    | error error => exact .error error
    | ok file => exact .ok (.refl left file)
  · exact keeps.parse

/-- The files are the same but for the contents of debug sections, and the symbol map is made of
bytes that are the same. -/
structure DebugChange (left right : ByteArray) : Prop where
  sameButDebug : SameButDebug left right
  symbols : ∀ file, File.parse left = .ok file →
    ∀ place, file.namingTable.Holds file.sections place → left[place]? = right[place]?

theorem DebugChange.refl (bytes : ByteArray) : DebugChange bytes bytes :=
  ⟨.inl rfl, fun _ _ _ _ => rfl⟩

end Elf

end Symbolization
