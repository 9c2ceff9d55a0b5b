import Mathlib.Data.List.Pairwise
import Symbolization.Dwarf.DebugData
import Symbolization.Proofs.Dwarf.Units

/-!
# Places of entries in the section of units

An entry may stand behind the header of its unit and before the end of the unit.  Such a place is
given by an offset in the unit or by one in the section, and either tells the other: since units
share no byte, an offset in the section lies among the entries of one unit at most.  In a header, in
a unit that was left out, and behind the last header that can be read, there is no place of an entry.
-/

namespace Symbolization

namespace Dwarf

namespace UnitHeader

variable {header : UnitHeader} {place inside : Nat}

theorem limit_eq (header : UnitHeader) :
    header.limit = header.size + header.entries.remaining := by
  have start := header.offset_le
  have inOrder := header.entries.position_le
  simp only [limit, size, Cursor.remaining]
  omega

theorem finish_eq (header : UnitHeader) : header.finish = header.offset + header.limit := by
  have start := header.offset_le
  have inOrder := header.entries.position_le
  simp only [limit, finish]
  omega

theorem offsetIn?_eq_some_iff : header.offsetIn? place = some inside ↔
    header.holds inside ∧ header.offset + inside = place := by
  rw [offsetIn?]
  constructor
  · intro found
    split at found
    · rename_i condition
      cases found
      exact ⟨condition.2, Nat.add_sub_cancel' condition.1⟩
    · contradiction
  · rintro ⟨held, rfl⟩
    rw [Nat.add_sub_cancel_left, if_pos ⟨Nat.le_add_right _ _, held⟩]

end UnitHeader

namespace CompilationUnit

/-- An entry of the unit may stand at the offset `inside` of it: behind its header and among the
bytes of its entries.  In the section that is the offset `place`. -/
structure Offers (unit : CompilationUnit) (place inside : Nat) : Prop where
  behind_header : unit.entries.header.size ≤ inside
  among_entries : inside < unit.entries.header.size + unit.entries.header.entries.remaining
  place_eq : unit.offset + inside = place

variable {sections : Sections} {header other : UnitHeader} {unit : CompilationUnit}
  {place inside : Nat}

theorem offers_iff : unit.Offers place inside ↔
    unit.entries.header.offsetIn? place = some inside := by
  rw [UnitHeader.offsetIn?_eq_some_iff, UnitHeader.holds_iff, UnitHeader.limit_eq, and_assoc]
  exact ⟨fun ⟨behind, among, same⟩ => ⟨behind, among, same⟩,
    fun ⟨behind, among, same⟩ => ⟨behind, among, same⟩⟩

theorem Offers.within (offers : unit.Offers place inside) :
    unit.offset + unit.entries.header.size ≤ place ∧ place < unit.entries.header.finish := by
  have behind := offers.behind_header
  have among := offers.among_entries
  have same := offers.place_eq
  rw [UnitHeader.finish_eq, UnitHeader.limit_eq]
  simp only [offset] at same ⊢
  omega

theorem header_of_mem_all (member : unit ∈ all sections) :
    unit.entries.header ∈ headers sections ∧
      ofHeader? sections unit.entries.header = some unit := by
  obtain ⟨header, inHeaders, found⟩ := List.mem_filterMap.mp member
  rw [header_of_ofHeader? found]
  exact ⟨inHeaders, found⟩

theorem finish_le_of_mem_headers :
    ∀ header ∈ headers sections, header.finish ≤ sections.info.size := by
  apply Reader.forall_mem_sequence
  intro first header last behind read
  rw [run_nextHeader, Option.map_eq_some_iff] at read
  obtain ⟨found, readHeader, same⟩ := read
  cases same
  calc
    found.1.finish = found.2.position := (UnitHeader.of_read readHeader).2
    _ ≤ found.2.limit := found.2.position_le
    _ = first.limit := (UnitHeader.read.reaches readHeader).limit
    _ = sections.info.size := behind.limit

/-- Units of which the headers can be read share no byte, be they left out or not. -/
theorem eq_of_mem_headers (member : header ∈ headers sections) (start : header.offset ≤ place)
    (stop : place < header.finish) (memberToo : other ∈ headers sections)
    (startToo : other.offset ≤ place) (stopToo : place < other.finish) : header = other := by
  have apart : (headers sections).Pairwise fun first second =>
      first.finish ≤ second.offset ∨ second.finish ≤ first.offset :=
    (ascending_headersFrom (.start sections.info sections.endian)).1.imp .inl
  have symmetric : Std.Symm fun first second : UnitHeader =>
      first.finish ≤ second.offset ∨ second.finish ≤ first.offset := ⟨fun _ _ => Or.symm⟩
  by_contra different
  have ordered := apart.forall member memberToo different
  omega

end CompilationUnit

namespace DebugData

def Offers (data : DebugData) (place index inside : Nat) : Prop :=
  ∃ unit, data.units[index]? = some unit ∧ unit.Offers place inside

/-- The unit with the number `index` is the first one that offers the place. -/
structure OffersFirst (data : DebugData) (place index inside : Nat) : Prop where
  offers : data.Offers place index inside
  none_before : ∀ earlier < index, ∀ insideThere, ¬ data.Offers place earlier insideThere

variable {data : DebugData} {sections : Sections} {place index inside : Nat}

theorem OffersFirst.unique {otherIndex otherInside : Nat}
    (first : data.OffersFirst place index inside)
    (firstToo : data.OffersFirst place otherIndex otherInside) :
    index = otherIndex ∧ inside = otherInside := by
  have same : index = otherIndex := by
    rcases Nat.lt_trichotomy index otherIndex with before | same | behind
    · exact absurd first.offers (firstToo.none_before index before inside)
    · exact same
    · exact absurd firstToo.offers (first.none_before otherIndex behind otherInside)
  subst same
  obtain ⟨unit, here, offers⟩ := first.offers
  obtain ⟨other, there, offersToo⟩ := firstToo.offers
  cases here.symm.trans there
  exact ⟨rfl, Nat.add_left_cancel (offers.place_eq.trans offersToo.place_eq.symm)⟩

theorem offersFirst_of_unitAt? (found : data.unitAt? place = some (index, inside)) :
    data.OffersFirst place index inside := by
  obtain ⟨before, ⟨unit, number⟩, behind, split, offers, noneBefore⟩ :=
    List.findSome?_eq_some_iff.mp found
  obtain ⟨offset, offersIt, same⟩ := Option.map_eq_some_iff.mp offers
  cases same
  have here : data.units.zipIdx[before.length]? = some (unit, index) := by
    rw [split, List.getElem?_append_right (Nat.le_refl _), Nat.sub_self]
    rfl
  have numbered : data.units[index]? = some unit :=
    List.mem_zipIdx_iff_getElem?.mp (List.mem_of_getElem? here)
  have length : before.length = index := by
    rw [List.getElem?_zipIdx] at here
    obtain ⟨_, _, same⟩ := Option.map_eq_some_iff.mp here
    exact (Nat.zero_add _).symm.trans (congrArg Prod.snd same)
  refine ⟨⟨unit, numbered, CompilationUnit.offers_iff.mpr offersIt⟩, ?_⟩
  rintro earlier isBefore insideThere ⟨other, there, offersThere⟩
  have place : data.units.zipIdx[earlier]? = some (other, earlier) := by
    rw [List.getElem?_zipIdx, there, Option.map_some, Nat.zero_add]
  rw [split, List.getElem?_append_left (length ▸ isBefore)] at place
  have nothing := noneBefore _ (List.mem_of_getElem? place)
  dsimp only at nothing
  rw [CompilationUnit.offers_iff.mp offersThere] at nothing
  contradiction

theorem isSome_unitAt?_of_offers (offers : data.Offers place index inside) :
    (data.unitAt? place).isSome := by
  obtain ⟨unit, here, offersIt⟩ := offers
  rw [unitAt?, List.findSome?_isSome_iff]
  refine ⟨(unit, index), List.mem_zipIdx_iff_getElem?.mpr here, ?_⟩
  dsimp only
  rw [CompilationUnit.offers_iff.mp offersIt]
  rfl

theorem unitAt?_eq_some_iff_offersFirst : data.unitAt? place = some (index, inside) ↔
    data.OffersFirst place index inside := by
  refine ⟨offersFirst_of_unitAt?, fun first => ?_⟩
  obtain ⟨⟨otherIndex, otherInside⟩, found⟩ :=
    Option.isSome_iff_exists.mp (isSome_unitAt?_of_offers first.offers)
  obtain ⟨rfl, rfl⟩ := (offersFirst_of_unitAt? found).unique first
  exact found

theorem unitAt?_eq_none_iff : data.unitAt? place = none ↔
    ∀ index inside, ¬ data.Offers place index inside := by
  constructor
  · intro nothing index inside offers
    have something := isSome_unitAt?_of_offers offers
    rw [nothing] at something
    contradiction
  · intro none
    rw [Option.eq_none_iff_forall_ne_some]
    rintro ⟨index, inside⟩ found
    exact none index inside (offersFirst_of_unitAt? found).offers

theorem Offers.mem_headers (offers : (ofSections sections).Offers place index inside) :
    ∃ unit ∈ CompilationUnit.all sections, unit.Offers place inside ∧
      unit.entries.header ∈ CompilationUnit.headers sections ∧
      CompilationUnit.ofHeader? sections unit.entries.header = some unit := by
  obtain ⟨unit, here, offersIt⟩ := offers
  have member : unit ∈ CompilationUnit.all sections := List.mem_of_getElem? here
  exact ⟨unit, member, offersIt, CompilationUnit.header_of_mem_all member⟩

theorem Offers.unique {otherIndex otherInside : Nat}
    (offers : (ofSections sections).Offers place index inside)
    (offersToo : (ofSections sections).Offers place otherIndex otherInside) :
    index = otherIndex ∧ inside = otherInside := by
  obtain ⟨unit, here, offersIt⟩ := offers
  obtain ⟨other, there, offersItToo⟩ := offersToo
  obtain ⟨start, stop⟩ := offersIt.within
  obtain ⟨startToo, stopToo⟩ := offersItToo.within
  obtain ⟨inUnits, rfl⟩ := List.getElem?_eq_some_iff.mp here
  obtain ⟨inUnitsToo, rfl⟩ := List.getElem?_eq_some_iff.mp there
  have ordered : (ofSections sections).units.Pairwise fun first second =>
      first.entries.header.finish ≤ second.offset := CompilationUnit.ascending_all sections
  have ascending := List.pairwise_iff_getElem.mp ordered
  have same : index = otherIndex := by
    rcases Nat.lt_trichotomy index otherIndex with before | same | behind
    · have apart := ascending index otherIndex inUnits inUnitsToo before
      omega
    · exact same
    · have apart := ascending otherIndex index inUnitsToo inUnits behind
      omega
  subst same
  exact ⟨rfl, Nat.add_left_cancel (offersIt.place_eq.trans offersItToo.place_eq.symm)⟩

/-- Among the units of sections the one that offers a place is the first one that does. -/
theorem offersFirst_iff : (ofSections sections).OffersFirst place index inside ↔
    (ofSections sections).Offers place index inside := by
  refine ⟨OffersFirst.offers, fun offers => ⟨offers, ?_⟩⟩
  intro earlier before insideThere offersToo
  exact absurd (offersToo.unique offers).1 (Nat.ne_of_lt before)

theorem unitAt?_eq_some_iff : (ofSections sections).unitAt? place = some (index, inside) ↔
    (ofSections sections).Offers place index inside :=
  unitAt?_eq_some_iff_offersFirst.trans offersFirst_iff

/-- Offsets in the section of units and offsets in single units tell each other. -/
structure TranslatesOffsets (sections : Sections) : Prop where
  /-- Each unit ends before the next one starts. -/
  ascending : (ofSections sections).units.Pairwise fun first second =>
    first.entries.header.finish ≤ second.offset
  /-- A unit takes up some bytes of the section. -/
  within_section : ∀ unit ∈ (ofSections sections).units,
    unit.offset < unit.entries.header.finish ∧ unit.entries.header.finish ≤ sections.info.size
  found_iff : ∀ place index inside,
    (ofSections sections).unitAt? place = some (index, inside) ↔
      ∃ unit, (ofSections sections).units[index]? = some unit ∧ unit.Offers place inside
  /-- One unit at most has the place of an entry at an offset in the section. -/
  offered_once : ∀ place index inside otherIndex otherInside,
    (ofSections sections).Offers place index inside →
    (ofSections sections).Offers place otherIndex otherInside →
      index = otherIndex ∧ inside = otherInside
  /-- The place of an entry is found again by its offset in the section. -/
  recovered : ∀ index unit, (ofSections sections).units[index]? = some unit → ∀ inside,
    unit.entries.header.size ≤ inside →
    inside < unit.entries.header.size + unit.entries.header.entries.remaining →
      (ofSections sections).unitAt? (unit.offset + inside) = some (index, inside)
  in_header : ∀ header ∈ CompilationUnit.headers sections, ∀ place, header.offset ≤ place →
    place < header.offset + header.size → (ofSections sections).unitAt? place = none
  left_out : ∀ header ∈ CompilationUnit.headers sections,
    CompilationUnit.ofHeader? sections header = none → ∀ place, header.offset ≤ place →
      place < header.finish → (ofSections sections).unitAt? place = none
  behind_headers : ∀ place,
    (∀ header ∈ CompilationUnit.headers sections, header.finish ≤ place) →
      (ofSections sections).unitAt? place = none

theorem unitAt?_of_in_header {header : UnitHeader}
    (member : header ∈ CompilationUnit.headers sections) (start : header.offset ≤ place)
    (stop : place < header.offset + header.size) :
    (ofSections sections).unitAt? place = none := by
  rw [unitAt?_eq_none_iff]
  intro index inside offers
  obtain ⟨unit, _, offersIt, memberToo, _⟩ := offers.mem_headers
  obtain ⟨behind, before⟩ := offersIt.within
  have beforeEnd : place < header.finish := by
    rw [UnitHeader.finish_eq, UnitHeader.limit_eq]
    omega
  have startToo : unit.entries.header.offset ≤ place := Nat.le_trans (Nat.le_add_right _ _) behind
  cases CompilationUnit.eq_of_mem_headers member start beforeEnd memberToo startToo before
  exact absurd stop (Nat.not_lt.mpr behind)

theorem unitAt?_of_left_out {header : UnitHeader}
    (member : header ∈ CompilationUnit.headers sections)
    (leftOut : CompilationUnit.ofHeader? sections header = none)
    (start : header.offset ≤ place) (stop : place < header.finish) :
    (ofSections sections).unitAt? place = none := by
  rw [unitAt?_eq_none_iff]
  intro index inside offers
  obtain ⟨unit, _, offersIt, memberToo, kept⟩ := offers.mem_headers
  obtain ⟨behind, before⟩ := offersIt.within
  have startToo : unit.entries.header.offset ≤ place := Nat.le_trans (Nat.le_add_right _ _) behind
  cases CompilationUnit.eq_of_mem_headers member start stop memberToo startToo before
  rw [leftOut] at kept
  contradiction

theorem unitAt?_of_behind_headers
    (behind : ∀ header ∈ CompilationUnit.headers sections, header.finish ≤ place) :
    (ofSections sections).unitAt? place = none := by
  rw [unitAt?_eq_none_iff]
  intro index inside offers
  obtain ⟨unit, _, offersIt, member, _⟩ := offers.mem_headers
  exact absurd offersIt.within.2 (Nat.not_lt.mpr (behind _ member))

/-- Whatever the sections hold, an offset in the section of units is translated into that of the unit
in which an entry may stand there, and into none where no entry may stand. -/
theorem translatesOffsets_ofSections (sections : Sections) : TranslatesOffsets sections where
  ascending := CompilationUnit.ascending_all sections
  within_section unit member := by
    obtain ⟨inHeaders, _⟩ := CompilationUnit.header_of_mem_all member
    exact ⟨CompilationUnit.offset_lt_finish_of_mem inHeaders,
      CompilationUnit.finish_le_of_mem_headers _ inHeaders⟩
  found_iff _ _ _ := unitAt?_eq_some_iff
  offered_once _ _ _ _ _ offers offersToo := offers.unique offersToo
  recovered _ unit here _ behind among :=
    unitAt?_eq_some_iff.mpr ⟨unit, here, behind, among, rfl⟩
  in_header _ member _ start stop := unitAt?_of_in_header member start stop
  left_out _ member leftOut _ start stop := unitAt?_of_left_out member leftOut start stop
  behind_headers _ behind := unitAt?_of_behind_headers behind

end DebugData

end Dwarf

end Symbolization
