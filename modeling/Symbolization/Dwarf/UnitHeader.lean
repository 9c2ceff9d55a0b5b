import Symbolization.Dwarf.Encoding

/-!
# Unit headers

The section of units holds one unit behind the other.  Each header gives the length of its unit, so
the next one is found without reading the entries.
-/

namespace Symbolization

namespace Dwarf

/-- The header of a unit.  `entries` is what follows it in the unit. -/
structure UnitHeader where
  /-- Where the unit starts in its section. -/
  offset : Nat
  encoding : Encoding
  /-- Where the abbreviations of the unit start in theirs. -/
  abbreviations : Nat
  entries : Cursor
  offset_le : offset ≤ entries.position

namespace UnitHeader

def size (header : UnitHeader) : Nat := header.entries.position - header.offset

def limit (header : UnitHeader) : Nat := header.entries.limit - header.offset

/-- Whether an entry may start at an offset in the unit. -/
def holds (header : UnitHeader) (offset : Nat) : Bool :=
  decide (header.size ≤ offset) && decide (offset < header.limit)

theorem holds_iff {header : UnitHeader} {offset : Nat} :
    header.holds offset ↔ header.size ≤ offset ∧ offset < header.limit := by
  simp [holds]

/-- The place of an offset in the unit, if an entry may start there. -/
def place? (header : UnitHeader) (offset : Nat) : Option Cursor :=
  if header.holds offset then header.entries.skip? (offset - header.size) else none

theorem reaches_of_place? {header : UnitHeader} {offset : Nat} {place : Cursor}
    (found : header.place? offset = some place) :
    header.entries.Reaches place ∧ place.position = header.offset + offset := by
  unfold place? at found
  split at found
  · rename_i held
    refine ⟨Cursor.reaches_of_skip? found, ?_⟩
    rw [Cursor.position_of_skip? found]
    have start := header.offset_le
    have behind := (holds_iff.mp held).1
    simp only [size] at behind ⊢
    omega
  · contradiction

/-- An offset in the section as one in this unit, if an entry may start there. -/
def offsetIn? (header : UnitHeader) (sectionOffset : Nat) : Option Nat :=
  if header.offset ≤ sectionOffset ∧ header.holds (sectionOffset - header.offset) then
    some (sectionOffset - header.offset)
  else none

/-- The version, the sizes and the offset of the abbreviations, which changed places in version 5,
and the fields that only some kinds of units have. -/
def readEncoding (offsetSize : OffsetSize) : Reader (Encoding × Nat) := do
  let version ← Reader.number 2
  if 2 ≤ version ∧ version ≤ 4 then
    let abbreviations ← offsetSize.read
    let size ← addressSize
    return (⟨offsetSize, version, size⟩, abbreviations)
  else if version = 5 then
    let kind ← Reader.byte
    let size ← addressSize
    let abbreviations ← offsetSize.read
    match kind with
    | 1 | 3 => pure ()
    | 2 | 6 => Reader.skip (8 + offsetSize.bytes)
    | 4 | 5 => Reader.skip 8
    | _ => Reader.fail
    return (⟨offsetSize, version, size⟩, abbreviations)
  else Reader.fail

/-- The header at the start of the bytes that its length counts. -/
def ofBody? (offsetSize : OffsetSize) (body : Cursor) : Option UnitHeader :=
  match found : (readEncoding offsetSize).run body with
  | none => none
  | some ((encoding, abbreviations), entries) =>
    some {
      offset := body.position - offsetSize.lengthBytes
      encoding
      abbreviations
      entries
      offset_le :=
        Nat.le_trans (Nat.sub_le _ _) ((readEncoding offsetSize).reaches found).position }

/-- A unit, of which all but the header is passed over. -/
def read : Reader UnitHeader := do
  let (length, offsetSize) ← initialLength
  let body ← Reader.stretch length
  Reader.ofOption (ofBody? offsetSize body)

theorem read_consumes : read.Consumes := initialLength_consumes.bind _

end UnitHeader

end Dwarf

end Symbolization
