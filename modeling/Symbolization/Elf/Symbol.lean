import Symbolization.Elf.Section
import Symbolization.Order.Search
import Symbolization.Text.Utf8

/-!
# Symbols

A symbol gives a name to an address.  Of the symbols that name one address the most telling one
is kept: known kinds before unknown ones, then the most widely visible, then the last in the table.
-/

namespace Symbolization

structure ExportedSymbol where
  address : UInt64
  name : String
  deriving DecidableEq, Repr

/-- Symbols in the order of their addresses. -/
structure SymbolMap where
  symbols : List ExportedSymbol
  deriving DecidableEq, Repr

namespace SymbolMap

def ofList (symbols : List ExportedSymbol) : SymbolMap :=
  ⟨symbols.mergeSort fun left right => left.address ≤ right.address⟩

/-- The symbol at the address or, if there is none, the one in front of it. -/
def find? (map : SymbolMap) (address : UInt64) : Option ExportedSymbol :=
  atOrBefore? (·.address) address map.symbols

end SymbolMap

namespace Elf

structure Symbol where
  name : Nat
  kind : Nat
  binding : Nat
  visibility : Nat
  sectionIndex : Nat
  address : UInt64
  size : Nat
  deriving DecidableEq, Repr

namespace Symbol

/-- A symbol from its fields, of which one byte holds kind and binding. -/
def ofFields (name info other sectionIndex address size : Nat) : Symbol :=
  ⟨name, info % 16, info / 16, other % 4, sectionIndex, UInt64.ofNat address, size⟩

def read : WordSize → Reader Symbol
  | .four => do
    let name ← Reader.number 4
    let address ← Reader.number 4
    let size ← Reader.number 4
    let info ← Reader.number 1
    let other ← Reader.number 1
    let sectionIndex ← Reader.number 2
    return ofFields name info other sectionIndex address size
  | .eight => do
    let name ← Reader.number 4
    let info ← Reader.number 1
    let other ← Reader.number 1
    let sectionIndex ← Reader.number 2
    let address ← Reader.number 8
    let size ← Reader.number 8
    return ofFields name info other sectionIndex address size

/-- Whether nothing is known about what the symbol names. -/
def isUntyped (symbol : Symbol) : Bool := symbol.kind == 0

/-- Whether the symbol belongs to a section.  The greatest index stands for one that is too great
for its place. -/
def isInSection (symbol : Symbol) : Bool :=
  symbol.sectionIndex != 0 && (symbol.sectionIndex < 0xff00 || symbol.sectionIndex == 0xffff)

/-- Whether the symbol names code or data in a section.  Without a known kind it must have a
size. -/
def isDefinition (symbol : Symbol) : Bool :=
  symbol.isInSection &&
    (symbol.kind == 1 || symbol.kind == 2 || symbol.isUntyped && symbol.size != 0)

/-- How widely the symbol is visible, zero for the widest: outside of its image, only inside of
it, only in its file, or unknown. -/
def scopeRank (symbol : Symbol) : Nat :=
  if symbol.binding = 1 ∨ symbol.binding = 2 then if symbol.visibility = 2 then 1 else 0
  else if symbol.binding = 0 then 2
  else 3

/-- How little the symbol tells.  The least of one address is kept. -/
def rank (symbol : Symbol) : Nat := (if symbol.isUntyped then 2 else 0) + symbol.scopeRank

end Symbol

/-- A symbol table: the number of its section, its symbols, and where their names are. -/
structure SymbolTable where
  sectionIndex : Nat
  symbols : List Symbol
  names : Option TextTable
  deriving DecidableEq, Repr

namespace SymbolTable

def none : SymbolTable := ⟨0, [], .none⟩

/-- The texts in a section with a number, where zero stands for no section. -/
def linkedTexts (sections : List Section) : Nat → Except ElfError (Option TextTable)
  | 0 => .ok .none
  | index =>
    match sections[index]? with
    | .none => .error .sectionIndex
    | some entry =>
      if entry.kind ≠ Section.textTableKind then .error .stringSectionType
      else if entry.offset + entry.size < UInt64.size then
        .ok (some ⟨entry.offset, entry.offset + entry.size⟩)
      else .error .stringSectionExtent

/-- The symbols that fill the bytes of a section to its end. -/
def symbolsIn? (contents : Contents) (data : ByteArray) : Option (List Symbol) :=
  let wordSize := contents.wordSize
  if data.size % wordSize.symbolBytes = 0 then
    (Reader.replicate (data.size / wordSize.symbolBytes) (Symbol.read wordSize)).at?
      (.start data contents.endian) 0
  else .none

/-- Whether the bytes of a section can be read as indices of four bytes each. -/
def holdsIndices (contents : Contents) (entry : Section) : Bool :=
  (entry.data? contents).any (·.size % 4 = 0)

def ofKind (contents : Contents) (sections : List Section) (kind : Nat) :
    Except ElfError SymbolTable :=
  match sections.zipIdx.find? (·.1.kind == kind) with
  | .none => .ok .none
  | some (entry, index) =>
    match (entry.data? contents).bind (symbolsIn? contents) with
    | .none => .error .symbolTable
    | some symbols => do
      let names ← linkedTexts sections entry.link
      let extended := sections.filter fun other =>
        other.kind == Section.extendedIndexKind && other.link == index
      if extended.all (holdsIndices contents) then return ⟨index, symbols, names⟩
      else .error .extendedIndexTable

def name? (contents : Contents) (table : SymbolTable) (symbol : Symbol) : Option String := do
  let names ← table.names
  let bytes ← names.text? contents symbol.name
  if bytes.isEmpty then .none else Utf8.strict? bytes

/-- A symbol that may be kept, with what decides between it and others of its address. -/
structure Candidate where
  exported : ExportedSymbol
  rank : Nat
  index : Nat
  deriving DecidableEq, Repr

namespace Candidate

/-- By address, then by rank, then the last in the table first. -/
def le (left right : Candidate) : Bool :=
  ((compare left.exported.address right.exported.address).then
    ((compare left.rank right.rank).then (compare right.index left.index))).isLE

end Candidate

/-- The symbols with names that define something.  The first one of a table is no symbol, and the
greatest address is not used. -/
def candidates (contents : Contents) (table : SymbolTable) : List Candidate :=
  (table.symbols.zipIdx.drop 1).filterMap fun (symbol, index) => do
    let name ← table.name? contents symbol
    if symbol.isDefinition && symbol.address != 0xffffffffffffffff then
      some ⟨⟨symbol.address, name⟩, symbol.rank, index⟩
    else .none

/-- The candidates without those that share the address of the one before them. -/
def keepFirst : List Candidate → List Candidate
  | [] => []
  | first :: rest =>
    first :: keepFirst (rest.dropWhile (·.exported.address == first.exported.address))
  termination_by candidates => candidates.length
  decreasing_by
    simp only [List.length_cons]
    exact Nat.lt_succ_of_le (List.dropWhile_sublist _).length_le

def map (contents : Contents) (table : SymbolTable) : SymbolMap :=
  .ofList ((keepFirst ((table.candidates contents).mergeSort Candidate.le)).map (·.exported))

end SymbolTable

end Elf

end Symbolization
