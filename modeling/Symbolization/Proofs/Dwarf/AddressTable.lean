import Symbolization.Dwarf.DebugData
import Symbolization.Proofs.Dwarf.Units
import Symbolization.Proofs.Order.Search

/-!
# What the address table assigns

A set of the section counts for the unit that starts at its offset, and a set for which there is no
such unit is passed over.  If every header can be read and no entry of a set that counts is faulty,
the table holds the stretches of all these entries; otherwise it holds none.  An address belongs to
the unit of that stretch around it that starts last.
-/

namespace Symbolization

namespace Dwarf

theorem pos_of_addressSize {first last : Cursor} {size : Nat}
    (read : addressSize.run first = some (size, last)) : 0 < size := by
  obtain ⟨byte, _, _, read⟩ := Reader.exists_of_bind read
  split at read
  · rename_i known
    cases read
    rcases known with rfl | rfl | rfl | rfl <;> decide
  · contradiction

namespace AddressSet

/-- The entries from a place on, as many as there are whole ones. -/
inductive Written (encoding : Encoding) : Cursor → List (UInt64 × UInt64) → Prop where
  | finished {place : Cursor} :
      place.remaining < 2 * encoding.addressSize → Written encoding place []
  | entry {place middle next : Cursor} {low length : UInt64} {entries : List (UInt64 × UInt64)} :
      encoding.readAddress.run place = some (low, middle) →
      encoding.readAddress.run middle = some (length, next) → Written encoding next entries →
      Written encoding place ((low, length) :: entries)

/-- The entry tells an end behind the greatest address.  The mark of dropped code tells no end. -/
def IsFault (encoding : Encoding) (entry : UInt64 × UInt64) : Prop :=
  entry.1 ≠ encoding.greatestAddress ∧
    encoding.greatestAddress.toNat < entry.1.toNat + entry.2.toNat

/-- The addresses of an entry that is no mark of dropped code, unless there are none. -/
def range? (encoding : Encoding) (entry : UInt64 × UInt64) : Option AddressInterval :=
  if entry.1 ≠ encoding.greatestAddress ∧ 0 < entry.2 ∧
      entry.1.toNat + entry.2.toNat ≤ encoding.greatestAddress.toNat then
    some ⟨entry.1, entry.1 + entry.2⟩
  else none

variable {encoding : Encoding} {place : Cursor} {entry : UInt64 × UInt64}
  {entries : List (UInt64 × UInt64)}

theorem takes_readAddress (encoding : Encoding) :
    encoding.readAddress.Takes encoding.addressSize :=
  (Reader.Takes.number encoding.addressSize).bind fun _ => .pure _

theorem remaining_lt_of_readAddress (failed : encoding.readAddress.run place = none) :
    place.remaining < encoding.addressSize := by
  have enough := (takes_readAddress encoding).isSome_run place
  rw [failed] at enough
  have few := mt enough.mpr Bool.false_ne_true
  have inside := place.position_le
  simp only [Cursor.remaining]
  omega

theorem remaining_of_readAddress {next : Cursor} {address : UInt64}
    (read : encoding.readAddress.run place = some (address, next)) :
    next.remaining + encoding.addressSize = place.remaining := by
  have moved := (takes_readAddress encoding).position read
  have limit := (encoding.readAddress.reaches read).limit
  have inside := next.position_le
  simp only [Cursor.remaining]
  omega

theorem run_readEntry (encoding : Encoding) (place : Cursor) :
    (readEntry encoding).run place =
      (encoding.readAddress.run place).bind fun low =>
        (encoding.readAddress.run low.2).map fun length =>
          (some (low.1, length.1), length.2) := by
  rw [readEntry, Reader.run_bind]
  congr 1
  funext low
  rw [Reader.run_bind]
  cases encoding.readAddress.run low.2 <;> rfl

theorem remaining_of_entry {middle next : Cursor} {low length : UInt64}
    (readLow : encoding.readAddress.run place = some (low, middle))
    (readLength : encoding.readAddress.run middle = some (length, next)) :
    next.remaining + 2 * encoding.addressSize = place.remaining := by
  have behindLow := remaining_of_readAddress readLow
  have behindLength := remaining_of_readAddress readLength
  omega

/-- Reading entries as long as there are any gives all of them. -/
theorem written_sequence (positive : 0 < encoding.addressSize) (place : Cursor) :
    Written encoding place
      (Reader.sequence (readEntry encoding) (readEntry_consumes positive) place) := by
  induction remaining : place.remaining using Nat.strongRecOn generalizing place with
  | ind _ induction =>
      have both := run_readEntry encoding place
      cases readLow : encoding.readAddress.run place with
      | none =>
          rw [readLow, Option.bind_none] at both
          rw [Reader.sequence_of_none both]
          have few := remaining_lt_of_readAddress readLow
          exact .finished (by omega)
      | some low =>
          obtain ⟨low, middle⟩ := low
          rw [readLow, Option.bind_some] at both
          cases readLength : encoding.readAddress.run middle with
          | none =>
              rw [readLength, Option.map_none] at both
              rw [Reader.sequence_of_none both]
              have kept := remaining_of_readAddress readLow
              have few := remaining_lt_of_readAddress readLength
              exact .finished (by omega)
          | some length =>
              obtain ⟨length, next⟩ := length
              have kept := remaining_of_entry readLow readLength
              rw [readLength, Option.map_some] at both
              rw [Reader.sequence_of_value both]
              exact .entry readLow readLength (induction _ (by omega) next rfl)

theorem Written.unique {others : List (UInt64 × UInt64)}
    (written : Written encoding place entries) (writtenToo : Written encoding place others) :
    entries = others := by
  induction written generalizing others with
  | finished few =>
      cases writtenToo with
      | finished => rfl
      | entry readLow readLength _ =>
          have kept := remaining_of_entry readLow readLength
          omega
  | entry readLow readLength _ induction =>
      cases writtenToo with
      | finished few =>
          have kept := remaining_of_entry readLow readLength
          omega
      | entry readLow' readLength' rest =>
          cases readLow.symm.trans readLow'
          cases readLength.symm.trans readLength'
          rw [induction rest]

/-! What an entry stands for. -/

theorem stretch?_of_isFault (fault : IsFault encoding entry) : stretch? encoding entry = none := by
  obtain ⟨notMark, tooGreat⟩ := fault
  have notZeros : ¬ (entry.1 = 0 ∧ entry.2 = 0) := by
    rintro ⟨low, length⟩
    rw [low, length] at tooGreat
    exact Nat.not_lt_zero _ tooGreat
  rw [stretch?, if_neg notZeros, if_neg notMark, Encoding.add?, if_neg (Nat.not_le.mpr tooGreat)]
  rfl

theorem lt_add_iff {low length : UInt64} (inRange : low.toNat + length.toNat < UInt64.size) :
    low < low + length ↔ 0 < length := by
  rw [UInt64.lt_iff_toNat_lt, UInt64.lt_iff_toNat_lt, UInt64.toNat_add,
    Nat.mod_eq_of_lt inRange, UInt64.toNat_zero]
  omega

/-- An entry that is not at fault stands for its addresses, of which there may be none. -/
theorem exists_stretch? (sound : ¬ IsFault encoding entry) :
    ∃ stretch, stretch? encoding entry = some stretch ∧
      stretch.filter (fun range => range.low < range.high) = range? encoding entry := by
  by_cases isMark : entry.1 = encoding.greatestAddress
  · have none : range? encoding entry = none := if_neg fun kept => kept.1 isMark
    rw [none, stretch?, if_pos isMark]
    exact ⟨.none, ite_self _, rfl⟩
  · have atMost : entry.1.toNat + entry.2.toNat ≤ encoding.greatestAddress.toNat :=
      Nat.not_lt.mp fun tooGreat => sound ⟨isMark, tooGreat⟩
    have inRange := Nat.lt_of_le_of_lt atMost encoding.greatestAddress.toNat_lt
    rw [stretch?, if_neg isMark, Encoding.add?, if_pos atMost, range?]
    by_cases zeros : entry.1 = 0 ∧ entry.2 = 0
    · refine ⟨none, if_pos zeros, ?_⟩
      rw [zeros.2, if_neg fun kept => absurd kept.2.1 (UInt64.lt_irrefl 0)]
      rfl
    · refine ⟨some ⟨entry.1, entry.1 + entry.2⟩, if_neg zeros, ?_⟩
      simp [Option.filter, lt_add_iff inRange, isMark, atMost]

theorem mapM_stretch?_of_isFault (member : entry ∈ entries) (fault : IsFault encoding entry) :
    entries.mapM (stretch? encoding) = none := by
  induction entries with
  | nil => contradiction
  | cons first entries induction =>
      rw [List.mapM_cons]
      rcases List.mem_cons.mp member with rfl | later
      · rw [stretch?_of_isFault fault]
        rfl
      · cases stretch? encoding first with
        | none => rfl
        | some stretch =>
            rw [induction later]
            rfl

theorem exists_mapM_stretch? (sound : ∀ entry ∈ entries, ¬ IsFault encoding entry) :
    ∃ stretches, entries.mapM (stretch? encoding) = some stretches ∧
      (stretches.filterMap id).filter (fun range => range.low < range.high) =
        entries.filterMap (range? encoding) := by
  induction entries with
  | nil => exact ⟨[], rfl, rfl⟩
  | cons first entries induction =>
      obtain ⟨stretches, all, kept⟩ := induction fun entry later => sound entry (by simp [later])
      obtain ⟨stretch, here, keptHere⟩ := exists_stretch? (sound first (by simp))
      refine ⟨stretch :: stretches, ?_, ?_⟩
      · rw [List.mapM_cons, here, all]
        rfl
      · rw [List.filterMap_cons, List.filterMap_cons, ← keptHere, ← kept]
        cases stretch with
        | none => rfl
        | some range =>
            by_cases nonempty : range.low < range.high <;> simp [nonempty, Option.filter]

variable {set : AddressSet} {next : Cursor}

theorem addressSize_pos_of_readHeader {size : OffsetSize} {body : Cursor} {unitOffset : Nat}
    (read : (readHeader size).run body = some ((unitOffset, encoding), next)) :
    0 < encoding.addressSize := by
  obtain ⟨version, _, _, read⟩ := Reader.exists_of_bind read
  obtain ⟨_, _, _, read⟩ := Reader.exists_of_bind read
  obtain ⟨offset, _, _, read⟩ := Reader.exists_of_bind read
  obtain ⟨addressSize, _, readSize, read⟩ := Reader.exists_of_bind read
  obtain ⟨segmentSize, _, _, read⟩ := Reader.exists_of_bind read
  obtain ⟨_, _, _, read⟩ := Reader.exists_of_bind read
  obtain ⟨_, _, _, read⟩ := Reader.exists_of_bind read
  cases read
  exact pos_of_addressSize readSize

theorem addressSize_pos_of_read (read : AddressSet.read.run place = some (set, next)) :
    0 < set.encoding.addressSize := by
  obtain ⟨⟨length, size⟩, _, _, read⟩ := Reader.exists_of_bind read
  obtain ⟨body, _, _, read⟩ := Reader.exists_of_bind read
  obtain ⟨⟨⟨unitOffset, encoding⟩, entries⟩, _, header, read⟩ := Reader.exists_of_bind read
  cases read
  exact addressSize_pos_of_readHeader (Reader.of_ofOption header).1

theorem stretches?_eq (positive : 0 < set.encoding.addressSize)
    (written : Written set.encoding set.entries entries) :
    set.stretches? = (entries.mapM (stretch? set.encoding)).map fun stretches =>
      (stretches.filterMap id).filter fun range => range.low < range.high := by
  rw [written.unique (written_sequence positive set.entries), stretches?, dif_pos positive]

end AddressSet

namespace AddressAssignment

variable (units : List CompilationUnit)

/-- What the sets from a place on assign, in the order of the section, if nothing is at fault. -/
inductive Assigns : Cursor → List AddressAssignment → Prop where
  | finished {place : Cursor} : place.atEnd → Assigns place []
  | foreign {place next : Cursor} {set : AddressSet} {others : List AddressAssignment} :
      AddressSet.read.run place = some (set, next) →
      (∀ unit ∈ units, unit.offset ≠ set.unitOffset) → Assigns next others → Assigns place others
  | own {place next : Cursor} {set : AddressSet} {index : Nat} {unit : CompilationUnit}
      {entries : List (UInt64 × UInt64)} {others : List AddressAssignment} :
      AddressSet.read.run place = some (set, next) →
      units[index]? = some unit → unit.offset = set.unitOffset →
      AddressSet.Written set.encoding set.entries entries →
      (∀ entry ∈ entries, ¬ AddressSet.IsFault set.encoding entry) → Assigns next others →
      Assigns place
        ((entries.filterMap (AddressSet.range? set.encoding)).map (⟨·, index⟩) ++ others)

/-- From a place on there is a set that cannot be read, or a set of a unit with an entry that is at
fault. -/
inductive Faulty : Cursor → Prop where
  | header {place : Cursor} :
      place.atEnd = false → AddressSet.read.run place = none → Faulty place
  | entry {place next : Cursor} {set : AddressSet} {unit : CompilationUnit}
      {entries : List (UInt64 × UInt64)} {entry : UInt64 × UInt64} :
      AddressSet.read.run place = some (set, next) →
      unit ∈ units → unit.offset = set.unitOffset →
      AddressSet.Written set.encoding set.entries entries → entry ∈ entries →
      AddressSet.IsFault set.encoding entry → Faulty place
  | later {place next : Cursor} {set : AddressSet} :
      AddressSet.read.run place = some (set, next) → Faulty next → Faulty place

variable {units} {place next : Cursor} {set : AddressSet} {listed : List AddressAssignment}

def readFrom? (unitOffsets : List Nat) (place : Cursor) : Option (List AddressAssignment) :=
  (Reader.filling? AddressSet.read AddressSet.read_consumes place).bind fun sets =>
    (sets.mapM (ofSet? unitOffsets)).map List.flatten

theorem read?_eq (sections : Sections) (unitOffsets : List Nat) :
    read? sections unitOffsets =
      readFrom? unitOffsets (.start sections.addressTable sections.endian) := by
  rw [read?, readFrom?, Option.bind_eq_bind]
  congr 1
  funext sets
  cases sets.mapM (ofSet? unitOffsets) <;> rfl

theorem readFrom?_of_read {unitOffsets : List Nat}
    (read : AddressSet.read.run place = some (set, next)) :
    readFrom? unitOffsets place =
      (ofSet? unitOffsets set).bind fun here =>
        (readFrom? unitOffsets next).map (here ++ ·) := by
  rw [readFrom?, readFrom?, Reader.filling?_of_value read]
  cases Reader.filling? AddressSet.read AddressSet.read_consumes next with
  | none => cases ofSet? unitOffsets set <;> rfl
  | some sets =>
      simp only [Option.map_some, Option.bind_some, List.mapM_cons]
      cases ofSet? unitOffsets set with
      | none => rfl
      | some here => cases sets.mapM (ofSet? unitOffsets) <;> rfl

theorem ofSet?_of_foreign (foreign : ∀ unit ∈ units, unit.offset ≠ set.unitOffset) :
    ofSet? (units.map (·.offset)) set = some [] := by
  have absent : (units.map (·.offset)).idxOf? set.unitOffset = none := by
    rw [List.idxOf?_eq_none_iff]
    simpa using foreign
  rw [ofSet?, absent]

theorem exists_ofSet? {unit : CompilationUnit} (member : unit ∈ units)
    (own : unit.offset = set.unitOffset) :
    ∃ index first, units[index]? = some first ∧ first.offset = set.unitOffset ∧
      ofSet? (units.map (·.offset)) set =
        set.stretches?.map fun stretches => stretches.map (⟨·, index⟩) := by
  cases found : (units.map (·.offset)).idxOf? set.unitOffset with
  | none =>
      rw [List.idxOf?_eq_none_iff] at found
      exact absurd (List.mem_map.mpr ⟨unit, member, own⟩) found
  | some index =>
      obtain ⟨inside, same, _⟩ := List.idxOf?_eq_some_iff.mp found
      rw [List.getElem_map] at same
      refine ⟨index, _, List.getElem?_eq_getElem _, same, ?_⟩
      rw [ofSet?, found]

theorem readFrom?_of_faulty (faulty : Faulty units place) :
    readFrom? (units.map (·.offset)) place = none := by
  induction faulty with
  | header more failed =>
      rw [readFrom?, Reader.filling?_of_none more failed]
      rfl
  | entry read member own written inside fault =>
      obtain ⟨index, first, _, _, ofSet⟩ := exists_ofSet? member own
      have positive := AddressSet.addressSize_pos_of_read read
      rw [readFrom?_of_read read, ofSet, AddressSet.stretches?_eq positive written,
        AddressSet.mapM_stretch?_of_isFault inside fault]
      rfl
  | later read _ induction =>
      rw [readFrom?_of_read read, induction]
      cases ofSet? _ _ <;> rfl

/-- A set that can be read has a fault in it, or its assignments stand before those of the sets
behind it. -/
theorem faulty_or_exists_ofSet? (units : List CompilationUnit)
    (read : AddressSet.read.run place = some (set, next)) :
    Faulty units place ∨ ∃ here, ofSet? (units.map (·.offset)) set = some here ∧
      ∀ others, Assigns units next others → Assigns units place (here ++ others) := by
  by_cases foreign : ∀ unit ∈ units, unit.offset ≠ set.unitOffset
  · exact .inr ⟨[], ofSet?_of_foreign foreign, fun others => .foreign read foreign⟩
  · obtain ⟨unit, member, own⟩ : ∃ unit ∈ units, unit.offset = set.unitOffset := by
      simpa using foreign
    have positive := AddressSet.addressSize_pos_of_read read
    have written := AddressSet.written_sequence positive set.entries
    generalize Reader.sequence _ _ _ = entries at written
    by_cases sound : ∀ entry ∈ entries, ¬ AddressSet.IsFault set.encoding entry
    · obtain ⟨index, first, there, same, ofSet⟩ := exists_ofSet? member own
      obtain ⟨stretches, all, kept⟩ := AddressSet.exists_mapM_stretch? sound
      refine .inr ⟨_, ?_, fun others => .own read there same written sound⟩
      rw [ofSet, AddressSet.stretches?_eq positive written, all, Option.map_some, kept]
      rfl
    · obtain ⟨entry, inside, fault⟩ :
          ∃ entry ∈ entries, AddressSet.IsFault set.encoding entry := by
        simpa using sound
      exact .inl (.entry read member own written inside fault)

/-- Without a fault the assignments are read that the sets make. -/
theorem faulty_or_exists_readFrom? (units : List CompilationUnit) (place : Cursor) :
    Faulty units place ∨ ∃ listed, readFrom? (units.map (·.offset)) place = some listed ∧
      Assigns units place listed := by
  induction remaining : place.remaining using Nat.strongRecOn generalizing place with
  | ind _ induction =>
      cases atEnd : place.atEnd with
      | true =>
          refine .inr ⟨[], ?_, .finished atEnd⟩
          rw [readFrom?, Reader.filling?_of_atEnd atEnd]
          rfl
      | false =>
          cases read : AddressSet.read.run place with
          | none => exact .inl (.header atEnd read)
          | some found =>
              obtain ⟨set, next⟩ := found
              have less := AddressSet.read_consumes.remaining_lt read
              obtain faulty | ⟨others, rest, assigns⟩ := induction _ (remaining ▸ less) next rfl
              · exact .inl (.later read faulty)
              · obtain faulty | ⟨here, ofSet, before⟩ := faulty_or_exists_ofSet? units read
                · exact .inl faulty
                · refine .inr ⟨here ++ others, ?_, before others assigns⟩
                  rw [readFrom?_of_read read, ofSet, rest]
                  rfl

/-- The assignments that count: those of all sets from a place on, or none if anything is at
fault. -/
inductive Counts (units : List CompilationUnit) (place : Cursor) :
    List AddressAssignment → Prop where
  | all {listed : List AddressAssignment} :
      ¬ Faulty units place → Assigns units place listed → Counts units place listed
  | none : Faulty units place → Counts units place []

theorem counts_readFrom? (units : List CompilationUnit) (place : Cursor) :
    Counts units place ((readFrom? (units.map (·.offset)) place).getD []) := by
  obtain faulty | ⟨listed, read, assigns⟩ := faulty_or_exists_readFrom? units place
  · rw [readFrom?_of_faulty faulty]
    exact .none faulty
  · rw [read]
    refine .all (fun faulty => ?_) assigns
    rw [readFrom?_of_faulty faulty] at read
    contradiction

theorem low_le_of_contains {assignment : AddressAssignment} {address : UInt64}
    (contains : assignment.range.contains address) : assignment.range.low ≤ address := by
  simp only [AddressInterval.contains, Bool.and_eq_true, decide_eq_true_eq] at contains
  exact contains.1

end AddressAssignment

namespace DebugData

/-- The table consists of the assignments in the order of their starts, those of one start in the
order in which they are listed.  An address is assigned if some assignment holds it, namely by that
one around it that starts last, or by the last one listed of several with this start. -/
structure AnswersBy (data : DebugData) (listed : List AddressAssignment) : Prop where
  table : StablySorted (·.range.low) listed data.table
  isSome_iff : ∀ address, (data.unitForAddress? address).isSome ↔
    ∃ assignment ∈ listed, assignment.range.contains address
  eq_some_iff : ∀ address unit, data.unitForAddress? address = some unit ↔
    ∃ assignment, assignment.unit = unit ∧
      IsLatest (·.range.low) (·.range.contains address) listed assignment

theorem answersBy_of_stablySorted {data : DebugData} {listed : List AddressAssignment}
    (stably : StablySorted (·.range.low) listed data.table) : data.AnswersBy listed := by
  have within (address : UInt64) : ∀ assignment ∈ data.table,
      assignment.range.contains address → assignment.range.low ≤ address :=
    fun _ _ => AddressAssignment.low_le_of_contains
  have isSome (address : UInt64) : (data.unitForAddress? address).isSome ↔
      ∃ assignment ∈ listed, assignment.range.contains address := by
    rw [unitForAddress?, AddressAssignment.find?, Option.isSome_map,
      stably.isSome_lastUpTo?_iff (within address)]
    simp only [stably.perm.mem_iff]
  have latest {address : UInt64} {unit : Nat} (found : data.unitForAddress? address = some unit) :
      ∃ assignment, assignment.unit = unit ∧
        IsLatest (·.range.low) (·.range.contains address) listed assignment := by
    obtain ⟨assignment, search, same⟩ := Option.map_eq_some_iff.mp found
    exact ⟨assignment, same, stably.isLatest_of_lastUpTo? (within address) search⟩
  refine ⟨stably, isSome, fun address unit => ⟨latest, ?_⟩⟩
  rintro ⟨assignment, rfl, isLatest⟩
  obtain ⟨before, after, split, _⟩ := isLatest.latest
  have member : assignment ∈ listed := by simp [split]
  obtain ⟨unit, found⟩ := Option.isSome_iff_exists.mp
    ((isSome address).mpr ⟨assignment, member, isLatest.passes⟩)
  obtain ⟨other, rfl, otherIs⟩ := latest found
  rw [found, isLatest.unique otherIs]

/-- The units start at different offsets, so each set belongs to at most one of them, and the table
and the lookup in it are determined by the assignments that count for the section. -/
theorem unitForAddress?_exact (sections : Sections) :
    ((ofSections sections).units.Pairwise fun first second => first.offset < second.offset) ∧
      ∃ listed, AddressAssignment.Counts (ofSections sections).units
          (.start sections.addressTable sections.endian) listed ∧
        (ofSections sections).AnswersBy listed := by
  refine ⟨CompilationUnit.offset_lt_all sections, _, AddressAssignment.counts_readFrom? _ _, ?_⟩
  apply answersBy_of_stablySorted
  rw [← AddressAssignment.read?_eq]
  exact stablySorted_mergeSort (fun assignment : AddressAssignment => assignment.range.low) _

end DebugData

end Dwarf

end Symbolization
