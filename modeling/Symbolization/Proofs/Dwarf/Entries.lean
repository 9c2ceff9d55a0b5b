import Symbolization.Dwarf.Entries

/-!
# Entries by their offsets

Every entry of the stream of a unit is found again under its own offset, and lies at most one level
below the entry before it.  The children of an entry stand behind it, one behind the other, and among
the entries of the unit, whatever an entry tells about its next sibling.
-/

namespace Symbolization

theorem Cursor.Reaches.skip? {first last : Cursor} (reaches : first.Reaches last) :
    first.skip? (last.position - first.position) = some last := by
  obtain ⟨bytes, endian, limit, position⟩ := reaches
  have behind : first.position + (last.position - first.position) = last.position :=
    Nat.add_sub_cancel' position
  have inside : first.position + (last.position - first.position) ≤ first.limit := by
    rw [behind, ← limit]
    exact last.position_le
  rw [Cursor.skip?, dif_pos inside]
  obtain ⟨content, order, place, stop, _, _⟩ := last
  cases bytes
  cases endian
  cases limit
  simp only [behind]

namespace Dwarf

theorem UnitHeader.holds_of_place? {header : UnitHeader} {offset : Nat} {place : Cursor}
    (found : header.place? offset = some place) : header.holds offset := by
  unfold place? at found
  split at found
  · assumption
  · contradiction

namespace Entries

variable {entries : Entries}

theorem place?_offsetOf {place : Cursor} (inside : entries.header.entries.Reaches place)
    (more : entries.offsetOf place < entries.header.limit) :
    entries.header.place? (entries.offsetOf place) = some place := by
  have start := entries.header.offset_le
  have position := inside.position
  have held : entries.header.holds (entries.offsetOf place) := by
    refine UnitHeader.holds_iff.mpr ⟨?_, more⟩
    simp only [UnitHeader.size, offsetOf]
    omega
  have distance : entries.offsetOf place - entries.header.size =
      place.position - entries.header.entries.position := by
    simp only [UnitHeader.size, offsetOf]
    omega
  rw [UnitHeader.place?, if_pos held, distance, inside.skip?]

theorem get?_of_mem_stream {place : Cursor} {delta : Int} {node : Int × Entry}
    (inside : entries.header.entries.Reaches place) (member : node ∈ entries.stream place delta) :
    entries.get? node.2.offset = some node.2 := by
  fun_induction entries.stream place delta with
  | case1 place delta read => contradiction
  | case2 place delta next read induction =>
      exact induction (inside.trans (entries.code.reaches read)) member
  | case3 place delta abbreviation values read induction =>
      rcases List.mem_cons.mp member with rfl | behind
      · have more := offsetOf_lt_limit inside (entries.code_consumes read)
          (entries.code.reaches read)
        have placed := place?_offsetOf inside more
        simp only [entryAt, get?, placed, Option.bind_eq_bind, Option.bind_some, read]
      · split at behind
        · contradiction
        · rename_i next found
          have reaches := (entries.code.reaches read).trans (Entry.reaches_of_end? found)
          exact induction next found (inside.trans reaches) behind

theorem get?_of_mem_all {node : Int × Entry} (member : node ∈ entries.all) :
    entries.get? node.2.offset = some node.2 :=
  get?_of_mem_stream (Cursor.Reaches.refl _) member

theorem change_le_one_of_mem_stream {place : Cursor} {delta : Int} {node : Int × Entry}
    (change : delta ≤ 1) (member : node ∈ entries.stream place delta) : node.1 ≤ 1 := by
  fun_induction entries.stream place delta with
  | case1 place delta read => contradiction
  | case2 place delta next read induction => exact induction (by omega) member
  | case3 place delta abbreviation values read induction =>
      rcases List.mem_cons.mp member with rfl | behind
      · exact change
      · split at behind
        · contradiction
        · rename_i next found
          exact induction next found (by split <;> decide) behind

theorem change_le_one_of_mem_all {node : Int × Entry} (member : node ∈ entries.all) :
    node.1 ≤ 1 :=
  change_le_one_of_mem_stream (by decide) member

theorem offsetOf_lt_offsetOf {place next : Cursor} (inside : entries.header.entries.Reaches place)
    (moved : place.position < next.position) : entries.offsetOf place < entries.offsetOf next := by
  have start := entries.header.offset_le
  have position := inside.position
  simp only [offsetOf]
  omega

theorem pairwise_siblings {place : Cursor} {level : Nat}
    (inside : entries.header.entries.Reaches place) :
    (entries.siblings place level).Pairwise (· < ·) := by
  fun_induction entries.siblings place level with
  | case1 => exact .nil
  | case2 => exact .nil
  | case3 place next read level induction =>
      exact induction (inside.trans (entries.code.reaches read))
  | case4 place level abbreviation values read induction =>
      refine List.pairwise_append.mpr ⟨?_, ?_, ?_⟩
      · split
        · exact List.pairwise_singleton _ _
        · exact .nil
      · split
        · exact .nil
        · rename_i next deeper found
          exact induction next deeper found (inside.trans (reaches_of_next? read found).1)
      · intro first here second behind
        have isPlace : first = entries.offsetOf place := by
          split at here <;> simp_all
        split at behind
        · contradiction
        · rename_i next deeper found
          obtain ⟨reaches, moved⟩ := reaches_of_next? read found
          have further := (bounds_of_mem_siblings (inside.trans reaches) behind).1
          rw [isPlace]
          exact Nat.lt_of_lt_of_le (offsetOf_lt_offsetOf inside moved) further

/-- Where there are children, the parent is an entry of the unit, and the children are the entries of
one level from some place on. -/
theorem children_cases (entries : Entries) (parent : Nat) :
    entries.children parent = [] ∨ ∃ place, entries.header.holds parent ∧
      entries.header.entries.Reaches place ∧ entries.children parent = entries.siblings place 0 := by
  unfold children
  split
  · exact .inl rfl
  · rename_i entry got
    split
    · split
      · exact .inl rfl
      · rename_i place behind
        simp only [get?, Option.bind_eq_bind, Option.bind_eq_some_iff] at got
        obtain ⟨start, placed, got⟩ := got
        split at got
        · rename_i abbreviation values read
          cases got
          have reaches := (entries.code.reaches read).trans (Entry.reaches_of_end? behind)
          exact .inr ⟨place, UnitHeader.holds_of_place? placed,
            (UnitHeader.reaches_of_place? placed).1.trans reaches, rfl⟩
        · contradiction
    · exact .inl rfl

theorem pairwise_children (entries : Entries) (parent : Nat) :
    (entries.children parent).Pairwise (· < ·) := by
  obtain none | ⟨place, -, inside, same⟩ := entries.children_cases parent
  · rw [none]
    exact .nil
  · rw [same]
    exact pairwise_siblings inside

theorem holds_of_mem_children {parent child : Nat} (member : child ∈ entries.children parent) :
    entries.header.holds child := by
  obtain ⟨behind, below⟩ := bounds_of_mem_children member
  obtain none | ⟨place, held, -⟩ := entries.children_cases parent
  · rw [none] at member
    contradiction
  · have first := (UnitHeader.holds_iff.mp held).1
    exact UnitHeader.holds_iff.mpr ⟨by omega, below⟩

end Entries

end Dwarf

end Symbolization
