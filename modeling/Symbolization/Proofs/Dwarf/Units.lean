import Mathlib.Data.List.Pairwise
import Symbolization.Dwarf.Unit
import Symbolization.Proofs.Bytes.Repetition

/-!
# Where units stand

The units of a section take up one stretch of it behind the other.  No two of them share a byte, so
no two of them start at one offset, even where a unit between them was left out.
-/

namespace Symbolization

namespace Dwarf

theorem position_of_initialLength {first last : Cursor} {length : Nat} {size : OffsetSize}
    (read : initialLength.run first = some ((length, size), last)) :
    last.position = first.position + size.lengthBytes := by
  obtain ⟨short, middle, readShort, read⟩ := Reader.exists_of_bind read
  have moved := (Reader.Takes.number 4).position readShort
  split at read
  · cases read
    exact moved
  · split at read
    · obtain ⟨long, next, readLong, read⟩ := Reader.exists_of_bind read
      cases read
      rw [(Reader.Takes.number 8).position readLong, moved]
      rfl
    · contradiction

namespace UnitHeader

variable {first last : Cursor} {header : UnitHeader}

/-- Where the end of the unit stands in its section. -/
def finish (header : UnitHeader) : Nat := header.entries.limit

theorem of_ofBody? {size : OffsetSize} {body : Cursor} (found : ofBody? size body = some header) :
    header.offset = body.position - size.lengthBytes ∧ body.Reaches header.entries := by
  unfold ofBody? at found
  split at found
  · contradiction
  · rename_i encoding abbreviations entries read
    cases found
    exact ⟨rfl, (readEncoding size).reaches read⟩

theorem of_read (read : UnitHeader.read.run first = some (header, last)) :
    header.offset = first.position ∧ header.finish = last.position := by
  obtain ⟨⟨length, size⟩, behindLength, readLength, read⟩ := Reader.exists_of_bind read
  obtain ⟨body, behind, readBody, read⟩ := Reader.exists_of_bind read
  obtain ⟨found, rfl⟩ := Reader.of_ofOption read
  obtain ⟨starts, limit, moved⟩ := Reader.of_stretch readBody
  obtain ⟨offset, reaches⟩ := of_ofBody? found
  have lengthMoved := position_of_initialLength readLength
  refine ⟨?_, ?_⟩
  · rw [offset, starts, lengthMoved, Nat.add_sub_cancel]
  · rw [finish, reaches.limit, limit, moved]

theorem offset_lt_finish (read : UnitHeader.read.run first = some (header, last)) :
    header.offset < header.finish := by
  obtain ⟨offset, finish⟩ := of_read read
  rw [offset, finish]
  exact read_consumes read

end UnitHeader

namespace CompilationUnit

theorem header_of_ofHeader? {sections : Sections} {header : UnitHeader} {unit : CompilationUnit}
    (found : ofHeader? sections header = some unit) : unit.entries.header = header := by
  obtain ⟨abbreviations, _, found⟩ := Option.bind_eq_some_iff.mp found
  obtain ⟨root, _, found⟩ := Option.bind_eq_some_iff.mp found
  obtain ⟨behind, _, found⟩ := Option.bind_eq_some_iff.mp found
  obtain ⟨lines, _, found⟩ := Option.bind_eq_some_iff.mp found
  obtain ⟨lowAddress, _, found⟩ := Option.bind_eq_some_iff.mp found
  cases found
  rfl

theorem nextHeader_consumes : nextHeader.Consumes := UnitHeader.read_consumes.bind _

def headersFrom (place : Cursor) : List UnitHeader :=
  Reader.sequence nextHeader nextHeader_consumes place

theorem run_nextHeader (place : Cursor) :
    nextHeader.run place =
      (UnitHeader.read.run place).map fun found => (some found.1, found.2) := by
  rw [nextHeader, Reader.run_bind]
  cases UnitHeader.read.run place <;> rfl

/-- Each unit ends before the next one starts, and none starts before the place. -/
theorem ascending_headersFrom (place : Cursor) :
    (headersFrom place).Pairwise (fun first second => first.finish ≤ second.offset) ∧
      ∀ header ∈ headersFrom place,
        place.position ≤ header.offset ∧ header.offset < header.finish := by
  induction remaining : place.remaining using Nat.strongRecOn generalizing place with
  | ind _ induction =>
      cases read : UnitHeader.read.run place with
      | none =>
          have none : headersFrom place = [] :=
            Reader.sequence_of_none (by rw [run_nextHeader, read, Option.map_none])
          simp [none]
      | some found =>
          obtain ⟨header, next⟩ := found
          have split : headersFrom place = header :: headersFrom next :=
            Reader.sequence_of_value (by rw [run_nextHeader, read, Option.map_some])
          have less := UnitHeader.read_consumes.remaining_lt read
          obtain ⟨ascending, behind⟩ := induction _ (remaining ▸ less) next rfl
          obtain ⟨offset, finish⟩ := UnitHeader.of_read read
          have some := UnitHeader.offset_lt_finish read
          rw [split]
          refine ⟨.cons ?_ ascending, ?_⟩
          · intro later member
            rw [finish]
            exact (behind later member).1
          · intro other member
            rcases List.mem_cons.mp member with rfl | later
            · exact ⟨Nat.le_of_eq offset.symm, some⟩
            · have bounds := behind other later
              omega

theorem offset_lt_finish_of_mem {sections : Sections} {header : UnitHeader}
    (member : header ∈ headers sections) : header.offset < header.finish :=
  ((ascending_headersFrom (.start sections.info sections.endian)).2 header member).2

theorem ascending_all (sections : Sections) :
    (all sections).Pairwise fun first second =>
      first.entries.header.finish ≤ second.entries.header.offset := by
  rw [all, List.pairwise_filterMap]
  refine (ascending_headersFrom (.start sections.info sections.endian)).1.imp ?_
  intro first second ascending unit found other foundOther
  rw [header_of_ofHeader? found, header_of_ofHeader? foundOther]
  exact ascending

theorem offset_lt_all (sections : Sections) :
    (all sections).Pairwise fun first second => first.offset < second.offset := by
  refine (ascending_all sections).imp_of_mem ?_
  intro first second member _ ascending
  obtain ⟨header, inside, found⟩ := List.mem_filterMap.mp member
  have some := offset_lt_finish_of_mem inside
  rw [← header_of_ofHeader? found] at some
  exact Nat.lt_of_lt_of_le some ascending

end CompilationUnit

end Dwarf

end Symbolization
