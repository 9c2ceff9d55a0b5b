import Symbolization.Elf.File
import Symbolization.Proofs.Bytes.Locality

/-!
# Where the parts of an object file are

Each part of a file is read from its own places.  Two files of one size whose bytes are the same at
the places of a part have the same part, whatever their other bytes are.  How many symbols a table
has, where their names are and whether it can be read at all does not depend on the bytes of the
table.
-/

namespace Symbolization

namespace Elf

/-! The number of bytes that the parts of a file take. -/

section

open Reader

/-- The number of bytes of an address or an offset. -/
def WordSize.wordBytes : WordSize → Nat
  | .four => 4
  | .eight => 8

theorem WordSize.takes_read (wordSize : WordSize) : wordSize.read.Takes wordSize.wordBytes := by
  cases wordSize <;> exact .number _

variable (wordSize : WordSize)

theorem Header.takes_read :
    (Header.read wordSize).Takes (wordSize.headerBytes - Contents.identificationBytes) := by
  have word := wordSize.takes_read
  have all : (Header.read wordSize).Takes _ :=
    .bind (.skip 8) fun _ => .bind word fun _ => .bind word fun _ => .bind word fun _ =>
    .bind (.skip 6) fun _ => .bind (.number 2) fun _ => .bind (.number 2) fun _ =>
    .bind (.number 2) fun _ => .bind (.number 2) fun _ => .bind (.number 2) fun _ => .pure _
  exact all.of_eq (by cases wordSize <;> rfl)

theorem Segment.takes_read : (Segment.read wordSize).Takes wordSize.segmentBytes := by
  cases wordSize with
  | four =>
      exact Takes.of_eq (.bind (.number 4) fun _ => .bind (.skip 4) fun _ =>
        .bind (.number 4) fun _ => .bind (.skip 8) fun _ => .bind (.number 4) fun _ =>
        .bind (.skip 8) fun _ => .pure _) rfl
  | eight =>
      exact Takes.of_eq (.bind (.number 4) fun _ => .bind (.skip 12) fun _ =>
        .bind (.number 8) fun _ => .bind (.skip 16) fun _ => .bind (.number 8) fun _ =>
        .bind (.skip 8) fun _ => .pure _) rfl

theorem Section.takes_read : (Section.read wordSize).Takes wordSize.sectionBytes := by
  have word := wordSize.takes_read
  have all : (Section.read wordSize).Takes _ :=
    .bind (.number 4) fun _ => .bind (.number 4) fun _ => .bind word fun _ => .bind word fun _ =>
    .bind word fun _ => .bind word fun _ => .bind (.number 4) fun _ => .bind (.number 4) fun _ =>
    .bind word fun _ => .bind word fun _ => .pure _
  exact all.of_eq (by cases wordSize <;> rfl)

theorem Symbol.takes_read : (Symbol.read wordSize).Takes wordSize.symbolBytes := by
  cases wordSize with
  | four =>
      exact Takes.of_eq (.bind (.number 4) fun _ => .bind (.number 4) fun _ =>
        .bind (.number 4) fun _ => .bind (.number 1) fun _ => .bind (.number 1) fun _ =>
        .bind (.number 2) fun _ => .pure _) rfl
  | eight =>
      exact Takes.of_eq (.bind (.number 4) fun _ => .bind (.number 1) fun _ =>
        .bind (.number 1) fun _ => .bind (.number 2) fun _ => .bind (.number 8) fun _ =>
        .bind (.number 8) fun _ => .pure _) rfl

end

/-! Places. -/

def Section.Holds (entry : Section) (place : Nat) : Prop :=
  entry.kind ≠ withoutBytesKind ∧ entry.offset ≤ place ∧ place < entry.offset + entry.size

def TextTable.Holds (table : TextTable) (place : Nat) : Prop :=
  table.first ≤ place ∧ place < table.last

/-- The file with other bytes, read in the same way. -/
def Contents.withBytes (contents : Contents) (bytes : ByteArray) : Contents :=
  { contents with bytes }

@[simp] theorem Contents.wordSize_withBytes (contents : Contents) (bytes : ByteArray) :
    (contents.withBytes bytes).wordSize = contents.wordSize := rfl

section

variable {contents : Contents} {bytes : ByteArray} (size : bytes.size = contents.bytes.size)
include size

theorem Contents.cursor_withBytes :
    contents.cursor.SeesAlike 0 (contents.withBytes bytes).cursor := by
  refine ⟨rfl, rfl, size.symm, ?_⟩
  intro place _ before _
  exact absurd before (Nat.not_lt_zero place)

theorem Contents.read?_withBytes {α : Type} {reader : Reader α} {offset count : Nat}
    (takes : reader.Takes count)
    (same : ∀ place, offset ≤ place → place < offset + count →
      contents.bytes[place]? = bytes[place]?) :
    (contents.withBytes bytes).read? reader offset = contents.read? reader offset := by
  symm
  apply Reader.at?_congr (fun _ => takes.congr) (cursor_withBytes size)
  intro place behind before _
  have start : contents.cursor.position = 0 := rfl
  rw [start, Nat.zero_add] at behind before
  exact same place behind before

theorem TextTable.text?_withBytes {table : TextTable}
    (same : ∀ place, table.Holds place → contents.bytes[place]? = bytes[place]?) (offset : Nat) :
    table.text? (contents.withBytes bytes) offset = table.text? contents offset := by
  simp only [text?, Option.bind_eq_bind, Cursor.take?]
  by_cases inside : contents.cursor.position + table.last ≤ contents.cursor.limit
  · have insideOther : (contents.withBytes bytes).cursor.position + table.last ≤
        (contents.withBytes bytes).cursor.limit := le_of_le_of_eq inside size.symm
    rw [dif_pos inside, dif_pos insideOther, Option.bind_some, Option.bind_some]
    have start : contents.cursor.position = 0 := rfl
    have text : ∀ {left right : Cursor}, left.limit = contents.cursor.position + table.last →
        left.SeesAlike table.last right →
          (Reader.text.run left).map (·.1) = (Reader.text.run right).map (·.1) := by
      intro left right limit alike
      refine Reader.text_congr (alike.mono ?_)
      rw [Cursor.remaining, limit, start, Nat.zero_add]
      exact Nat.sub_le _ _
    symm
    refine Reader.at?_congr (fun limit => text limit) ⟨rfl, rfl, ?_, ?_⟩ ?_
    · rfl
    · intro place _ before _
      exact absurd before (Nat.not_lt_zero place)
    · intro place behind _ before
      dsimp only at behind before
      exact same place ⟨by omega, by omega⟩
  · have outside : ¬ (contents.withBytes bytes).cursor.position + table.last ≤
        (contents.withBytes bytes).cursor.limit := fun other => inside (le_of_le_of_eq other size)
    rw [dif_neg inside, dif_neg outside]

theorem Section.data?_withBytes {entry : Section}
    (same : ∀ place, entry.Holds place → contents.bytes[place]? = bytes[place]?) :
    entry.data? (contents.withBytes bytes) = entry.data? contents := by
  by_cases empty : entry.kind = withoutBytesKind
  · rw [data?, data?, if_pos empty, if_pos empty]
  · have contents_eq : bytes.extract entry.offset (entry.offset + entry.size) =
        contents.bytes.extract entry.offset (entry.offset + entry.size) :=
      extract_congr size fun place behind before => same place ⟨empty, behind, before⟩
    simp only [data?, if_neg empty, Contents.withBytes, size, contents_eq]

theorem Section.map_size_data?_withBytes (entry : Section) :
    (entry.data? (contents.withBytes bytes)).map ByteArray.size =
      (entry.data? contents).map ByteArray.size := by
  by_cases empty : entry.kind = withoutBytesKind
  · rw [data?, data?, if_pos empty, if_pos empty]
  · simp only [data?, if_neg empty, Contents.withBytes, size]
    split
    · simp only [Option.map_some, ByteArray.size_extract, size]
    · rfl

/-! Tables of symbols. -/

namespace SymbolTable

/-- The place holds a symbol of the table or a name for one. -/
def Holds (sections : List Section) (table : SymbolTable) (place : Nat) : Prop :=
  table.symbols ≠ [] ∧
    ((∃ entry, sections[table.sectionIndex]? = some entry ∧ entry.Holds place) ∨
      ∃ names ∈ table.names, names.Holds place)

theorem holdsIndices_withBytes :
    holdsIndices (contents.withBytes bytes) = holdsIndices contents := by
  funext entry
  have sizes := congrArg (Option.any fun size => decide (size % 4 = 0))
    (Section.map_size_data?_withBytes size entry)
  rwa [Option.any_map, Option.any_map] at sizes

theorem name?_withBytes {table : SymbolTable}
    (same : ∀ names ∈ table.names, ∀ place, names.Holds place →
      contents.bytes[place]? = bytes[place]?) (symbol : Symbol) :
    table.name? (contents.withBytes bytes) symbol = table.name? contents symbol := by
  cases named : table.names with
  | none => simp only [name?, named, Option.bind_eq_bind, Option.bind_none]
  | some names =>
      have text := names.text?_withBytes size (same names named) symbol.name
      simp only [name?, named, Option.bind_eq_bind, Option.bind_some, text]

theorem map_withBytes {table : SymbolTable}
    (same : ∀ names ∈ table.names, ∀ place, names.Holds place →
      contents.bytes[place]? = bytes[place]?) :
    table.map (contents.withBytes bytes) = table.map contents := by
  simp only [map, candidates, name?_withBytes size same]

end SymbolTable

end

namespace SymbolTable

/-- What of a table does not depend on the bytes of its symbols. -/
def shape (table : SymbolTable) : Nat × Nat × Option TextTable :=
  (table.sectionIndex, table.symbols.length, table.names)

theorem map_length_symbolsIn? (contents : Contents) (data : ByteArray) :
    (symbolsIn? contents data).map List.length =
      if data.size % contents.wordSize.symbolBytes = 0 then
        some (data.size / contents.wordSize.symbolBytes)
      else .none := by
  simp only [symbolsIn?]
  split
  · rename_i whole
    let start : Cursor := .start data contents.endian
    let count := data.size / contents.wordSize.symbolBytes
    have takes := (Symbol.takes_read contents.wordSize).replicate count
    have inside : start.position + count * contents.wordSize.symbolBytes ≤ start.limit := by
      have all : count * contents.wordSize.symbolBytes = data.size :=
        Nat.div_mul_cancel (Nat.dvd_of_mod_eq_zero whole)
      rw [all]
      exact Nat.le_of_eq (Nat.zero_add _)
    obtain ⟨⟨symbols, last⟩, read⟩ :=
      Option.isSome_iff_exists.mp ((takes.isSome_run start).mpr inside)
    have first : start.skip? 0 = some start := dif_pos start.position_le
    rw [Reader.at?_eq, first, Option.bind_some, read, Option.map_some, Option.map_some,
      Reader.length_of_replicate read]
  · rfl

theorem map_eq_of_symbols_eq_nil {table : SymbolTable} (empty : table.symbols = [])
    (contents : Contents) : table.map contents = .ofList [] := by
  have nothing : table.candidates contents = [] := by
    rw [candidates, empty]
    rfl
  rw [map, nothing, List.mergeSort_nil, keepFirst, List.map_nil]

theorem sectionIndex_of_ofKind {contents : Contents} {sections : List Section} {kind index : Nat}
    {table : SymbolTable} {entry : Section}
    (found : sections.zipIdx.find? (·.1.kind == kind) = some (entry, index))
    (read : ofKind contents sections kind = .ok table) : table.sectionIndex = index := by
  simp only [ofKind, found] at read
  cases symbols : (entry.data? contents).bind (symbolsIn? contents) with
  | none =>
      rw [symbols] at read
      contradiction
  | some symbols' =>
      rw [symbols] at read
      cases linked : linkedTexts sections entry.link with
      | error error =>
          rw [linked] at read
          contradiction
      | ok names =>
          simp only [linked, bind, Except.bind, pure, Except.pure] at read
          split at read
          · cases read
            rfl
          · contradiction

variable {contents : Contents} {bytes : ByteArray} (size : bytes.size = contents.bytes.size)
include size

theorem map_shape_ofKind_withBytes (sections : List Section) (kind : Nat) :
    (ofKind (contents.withBytes bytes) sections kind).map shape =
      (ofKind contents sections kind).map shape := by
  cases found : sections.zipIdx.find? (·.1.kind == kind) with
  | none => simp only [ofKind, found]
  | some place =>
      obtain ⟨entry, index⟩ := place
      have lengths : ((entry.data? (contents.withBytes bytes)).bind
            (symbolsIn? (contents.withBytes bytes))).map List.length =
          ((entry.data? contents).bind (symbolsIn? contents)).map List.length := by
        have sizes := congrArg (Option.bind · fun count =>
            if count % contents.wordSize.symbolBytes = 0 then
              some (count / contents.wordSize.symbolBytes)
            else .none)
          (Section.map_size_data?_withBytes size entry)
        simp only [Option.bind_map] at sizes
        simp only [Option.map_bind, Function.comp_def, map_length_symbolsIn?]
        exact sizes
      simp only [ofKind, found, holdsIndices_withBytes size]
      cases left : (entry.data? (contents.withBytes bytes)).bind
          (symbolsIn? (contents.withBytes bytes)) with
      | none =>
          rw [left] at lengths
          rw [Option.map_eq_none_iff.mp lengths.symm]
      | some symbols =>
          rw [left] at lengths
          obtain ⟨others, right, length⟩ := Option.map_eq_some_iff.mp lengths.symm
          rw [right]
          cases linkedTexts sections entry.link with
          | error error => rfl
          | ok names =>
              simp only [bind, Except.bind, pure, Except.pure]
              split
              · simp only [Except.map, shape, length]
              · rfl

theorem ofKind_withBytes {sections : List Section} {kind : Nat} {table : SymbolTable}
    (read : ofKind contents sections kind = .ok table)
    (same : ∀ entry, sections[table.sectionIndex]? = some entry → ∀ place, entry.Holds place →
      contents.bytes[place]? = bytes[place]?) :
    ofKind (contents.withBytes bytes) sections kind = .ok table := by
  rw [← read]
  cases found : sections.zipIdx.find? (·.1.kind == kind) with
  | none => simp only [ofKind, found]
  | some place =>
      obtain ⟨entry, index⟩ := place
      have data : entry.data? (contents.withBytes bytes) = entry.data? contents := by
        have placed : sections[table.sectionIndex]? = some entry := by
          rw [sectionIndex_of_ofKind found read]
          exact List.mem_zipIdx_iff_getElem?.mp (List.mem_of_find?_eq_some found)
        exact Section.data?_withBytes size (same entry placed)
      have symbols : symbolsIn? (contents.withBytes bytes) = symbolsIn? contents := rfl
      simp only [ofKind, found, data, symbols, holdsIndices_withBytes size]

/-- The symbol map is the same where the bytes of the symbols and of their names are. -/
theorem map_eq_of_same {sections : List Section} {kind : Nat} {table other : SymbolTable}
    (read : ofKind contents sections kind = .ok table)
    (readOther : ofKind (contents.withBytes bytes) sections kind = .ok other)
    (same : ∀ place, table.Holds sections place → contents.bytes[place]? = bytes[place]?) :
    other.map (contents.withBytes bytes) = table.map contents := by
  by_cases empty : table.symbols = []
  · have shapes := map_shape_ofKind_withBytes size sections kind
    rw [read, readOther] at shapes
    have lengths : other.symbols.length = table.symbols.length :=
      congrArg (·.2.1) (Except.ok.inj shapes)
    have otherEmpty : other.symbols = [] := by
      rw [empty] at lengths
      exact List.length_eq_zero_iff.mp lengths
    rw [map_eq_of_symbols_eq_nil empty, map_eq_of_symbols_eq_nil otherEmpty]
  · have symbols : ofKind (contents.withBytes bytes) sections kind = .ok table := by
      apply ofKind_withBytes size read
      intro entry placed place held
      exact same place ⟨empty, .inl ⟨entry, placed, held⟩⟩
    cases readOther.symm.trans symbols
    apply map_withBytes size
    intro names known place held
    exact same place ⟨empty, .inr ⟨names, known, held⟩⟩

end SymbolTable

end Elf

end Symbolization
