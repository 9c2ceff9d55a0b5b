import Mathlib
import Symbolization.Dwarf.SourceFile

/-!
# Positions by the sequences of a line program

The rows of a line program fall into sequences, each up to a row that only marks its end.  The
search for a row compares neighbours without telling sequences apart.  Where no sequence goes back
to lower addresses, it finds the last row at or below an address in the first sequence that has the
address between its first row and some later one.
-/

namespace Symbolization

namespace Dwarf

namespace LineRow

/-- The sequences of rows.  Each goes on up to a row that ends it or to the end of the rows. -/
def sequences (rows : List LineRow) : List (List LineRow) :=
  rows.splitBy fun row _ => !row.endsSequence

/-- Whether a sequence starts at or below an address and has a later row above it. -/
def spans (address : UInt64) : List LineRow → Bool
  | [] => false
  | first :: later => first.address ≤ address && later.any (address < ·.address)

/-- The row is the last one of a sequence at or below an address, and the other one is next. -/
def IsLastUpTo (address : UInt64) (sequence : List LineRow) (row next : LineRow) : Prop :=
  ∃ before after, sequence = before ++ row :: next :: after ∧ row.address ≤ address ∧
    ∀ above ∈ next :: after, address < above.address

variable {address : UInt64} {sequence : List LineRow} {row next : LineRow}

/-- There is one way to cut rows at one at or below the address with all behind it above. -/
theorem eq_of_append_eq_append {before earlier rest later : List LineRow} {other : LineRow}
    (equality : before ++ row :: rest = earlier ++ other :: later)
    (reached : row.address ≤ address) (above : ∀ row ∈ rest, address < row.address)
    (otherReached : other.address ≤ address) (otherAbove : ∀ row ∈ later, address < row.address) :
    row = other ∧ rest = later := by
  have notAbove : ∀ {row : LineRow}, row.address ≤ address → ¬ address < row.address :=
    fun reached => UInt64.not_lt.mpr reached
  rcases List.append_eq_append_iff.mp equality with ⟨between, _, tails⟩ | ⟨between, _, tails⟩
  · cases between with
    | nil => exact List.cons_eq_cons.mp tails
    | cons first between =>
        obtain ⟨rfl, rfl⟩ := List.cons_eq_cons.mp tails
        exact absurd (above other (by simp)) (notAbove otherReached)
  · cases between with
    | nil =>
        obtain ⟨rfl, rfl⟩ := List.cons_eq_cons.mp tails
        exact ⟨rfl, rfl⟩
    | cons first between =>
        obtain ⟨rfl, rfl⟩ := List.cons_eq_cons.mp tails
        exact absurd (otherAbove row (by simp)) (notAbove reached)

theorem IsLastUpTo.unique {other following : LineRow} (last : IsLastUpTo address sequence row next)
    (otherLast : IsLastUpTo address sequence other following) : row = other ∧ next = following := by
  obtain ⟨before, after, rfl, reached, above⟩ := last
  obtain ⟨earlier, later, equality, otherReached, otherAbove⟩ := otherLast
  obtain ⟨rfl, tails⟩ :=
    eq_of_append_eq_append equality reached above otherReached otherAbove
  exact ⟨rfl, (List.cons_eq_cons.mp tails).1⟩

/-! The search stays inside of sequences. -/

theorem covering?_append (ended : ∀ last ∈ sequence.getLast?, last.endsSequence = true)
    (rows : List LineRow) :
    covering? address (sequence ++ rows) =
      (covering? address sequence).or (covering? address rows) := by
  induction sequence with
  | nil => simp [covering?]
  | cons row later induction =>
      cases later with
      | nil =>
          have isEnd : row.endsSequence = true := ended row rfl
          cases rows <;> simp [covering?, isEnd]
      | cons next later =>
          have laterRows := induction ended
          simp only [List.cons_append, covering?] at laterRows ⊢
          split_ifs
          · rfl
          · exact laterRows

theorem covering?_flatten {parts : List (List LineRow)}
    (ended : parts.IsChain fun part _ => ∀ last ∈ part.getLast?, last.endsSequence = true) :
    covering? address parts.flatten = parts.findSome? (covering? address) := by
  induction parts with
  | nil => rfl
  | cons part parts induction =>
      cases parts with
      | nil =>
          rw [List.flatten_singleton, List.findSome?_singleton]
      | cons other parts =>
          obtain ⟨endsHere, ended⟩ := List.isChain_cons_cons.mp ended
          rw [List.flatten_cons, covering?_append endsHere, induction ended,
            List.findSome?_cons (a := part)]
          cases covering? address part <;> rfl

theorem sequences_ended (rows : List LineRow) :
    (sequences rows).IsChain fun sequence _ =>
      ∀ last ∈ sequence.getLast?, last.endsSequence = true := by
  apply (List.isChain_getLast_head_splitBy _ rows).imp
  rintro sequence other ⟨notEmpty, _, ends⟩ last isLast
  rw [List.getLast?_eq_some_getLast notEmpty, Option.mem_some_iff] at isLast
  simpa [isLast] using ends

theorem covering?_eq_findSome? (address : UInt64) (rows : List LineRow) :
    covering? address rows = (sequences rows).findSome? (covering? address) := by
  rw [← covering?_flatten (sequences_ended rows), sequences, List.flatten_splitBy]

/-! Inside of a sequence the search finds the last row at or below the address. -/

theorem exists_of_covering? {rows : List LineRow}
    (found : covering? address rows = some (row, next)) :
    ∃ before after, rows = before ++ row :: next :: after ∧ row.endsSequence = false ∧
      row.address ≤ address ∧ address < next.address := by
  fun_induction covering? address rows with
  | case1 first second later covers =>
      cases found
      simp only [Bool.and_eq_true, Bool.not_eq_true', decide_eq_true_eq] at covers
      exact ⟨[], later, rfl, covers.1.1, covers.1.2, covers.2⟩
  | case2 first second later _ induction =>
      obtain ⟨before, after, equality, rest⟩ := induction found
      exact ⟨first :: before, after, by rw [equality, List.cons_append], rest⟩
  | case3 => cases found

def Ascends (sequence : List LineRow) : Prop :=
  sequence.Pairwise (·.address ≤ ·.address)

theorem isLastUpTo_of_covering? (ascends : Ascends sequence)
    (found : covering? address sequence = some (row, next)) :
    IsLastUpTo address sequence row next := by
  obtain ⟨before, after, rfl, _, reached, passed⟩ := exists_of_covering? found
  refine ⟨before, after, rfl, reached, List.forall_mem_cons.mpr ⟨passed, ?_⟩⟩
  intro above member
  have behind := (List.pairwise_append.mp ascends).2.1.of_cons
  exact UInt64.lt_of_lt_of_le passed (List.rel_of_pairwise_cons behind member)

theorem spans_of_covering? (ascends : Ascends sequence)
    (found : covering? address sequence = some (row, next)) : spans address sequence := by
  obtain ⟨before, after, rfl, _, reached, passed⟩ := exists_of_covering? found
  cases before with
  | nil => simp [spans, reached, passed]
  | cons first before =>
      have firstReached : first.address ≤ row.address :=
        List.rel_of_pairwise_cons ascends (by simp)
      simp [spans, UInt64.le_trans firstReached reached, passed]

/-- What spans an address has a row that covers it, as long as no row but the last ends it. -/
theorem isSome_covering?_of_spans (goesOn : sequence.IsChain fun row _ => row.endsSequence = false)
    (spanning : spans address sequence) : (covering? address sequence).isSome := by
  induction sequence with
  | nil => cases spanning
  | cons first later induction =>
      cases later with
      | nil => simp [spans] at spanning
      | cons second later =>
          obtain ⟨notEnd, goesOn⟩ := List.isChain_cons_cons.mp goesOn
          simp only [spans, List.any_cons, Bool.and_eq_true, Bool.or_eq_true,
            decide_eq_true_eq] at spanning
          obtain ⟨reached, above⟩ := spanning
          by_cases passed : address < second.address
          · simp [covering?, notEnd, reached, passed]
          · have reachedSecond : second.address ≤ address := UInt64.not_lt.mp passed
            have spanning : spans address (second :: later) := by
              simpa [spans, reachedSecond] using above.resolve_left passed
            simpa [covering?, passed] using induction goesOn spanning

theorem goesOn_of_mem {rows : List LineRow} (member : sequence ∈ sequences rows) :
    sequence.IsChain fun row _ => row.endsSequence = false := by
  simpa using List.isChain_of_mem_splitBy member

/-- The search finds a row just where some sequence spans the address. -/
theorem isSome_covering?_iff {rows : List LineRow}
    (ascend : ∀ sequence ∈ sequences rows, Ascends sequence) :
    (covering? address rows).isSome ↔ ∃ sequence ∈ sequences rows, spans address sequence := by
  rw [covering?_eq_findSome?, List.findSome?_isSome_iff]
  constructor
  · rintro ⟨sequence, member, found⟩
    obtain ⟨⟨row, next⟩, found⟩ := Option.isSome_iff_exists.mp found
    exact ⟨sequence, member, spans_of_covering? (ascend sequence member) found⟩
  · rintro ⟨sequence, member, spanning⟩
    exact ⟨sequence, member, isSome_covering?_of_spans (goesOn_of_mem member) spanning⟩

/-- The sequence in which the search finds a row is the first one that spans the address. -/
theorem exists_sequence_of_covering? {rows : List LineRow}
    (ascend : ∀ sequence ∈ sequences rows, Ascends sequence)
    (found : covering? address rows = some (row, next)) :
    ∃ sequence, (sequences rows).find? (spans address) = some sequence ∧
      IsLastUpTo address sequence row next ∧ row.endsSequence = false := by
  rw [covering?_eq_findSome?, List.findSome?_eq_some_iff] at found
  obtain ⟨earlier, sequence, later, equality, found, missed⟩ := found
  have members : ∀ other ∈ earlier ++ sequence :: later, other ∈ sequences rows :=
    fun other member => equality ▸ member
  have ascends : Ascends sequence := ascend sequence (members sequence (by simp))
  obtain ⟨_, _, _, notEnd, _⟩ := exists_of_covering? found
  refine ⟨sequence, ?_, isLastUpTo_of_covering? ascends found, notEnd⟩
  rw [List.find?_eq_some_iff_append]
  refine ⟨spans_of_covering? ascends found, earlier, later, equality, ?_⟩
  intro other member
  rw [Bool.not_eq_true']
  by_contra spanning
  have covered := isSome_covering?_of_spans (goesOn_of_mem (members other (by simp [member])))
    (Bool.not_eq_false _ ▸ spanning)
  rw [missed other member] at covered
  cases covered

end LineRow

/-! A sequence goes back to lower addresses only where dropped code cuts it short. -/

/-- Within its sequence no row is below the one before.  If the sequence at hand has a row already,
the first of the rows is not below an address either. -/
structure LineRow.Climb (hasRow : Bool) (address : UInt64) (rows : List LineRow) : Prop where
  chain : rows.IsChain fun row next => row.endsSequence = false → row.address ≤ next.address
  first : hasRow → ∀ row ∈ rows.head?, address ≤ row.address

namespace LineRow.Climb

variable {hasRow : Bool} {low address : UInt64} {rows : List LineRow}

theorem lower (climb : Climb hasRow address rows) (below : low ≤ address) :
    Climb hasRow low rows where
  chain := climb.chain
  first has row isFirst := UInt64.le_trans below (climb.first has row isFirst)

theorem cons (row : LineRow) (climb : Climb (!row.endsSequence) row.address rows)
    (below : low ≤ row.address) : Climb hasRow low (row :: rows) where
  chain := List.isChain_cons.mpr
    ⟨fun next isNext goesOn => climb.first (by rw [goesOn]; rfl) next isNext, climb.chain⟩
  first _ _ isFirst := by
    cases isFirst
    exact below

end LineRow.Climb

namespace LineRegisters

variable {header : LineHeader} {registers next : LineRegisters}

theorem le_of_advanceBytes? (registers : LineRegisters) {bytes : UInt64}
    (moved : registers.advanceBytes? header bytes = some next) :
    registers.address ≤ next.address := by
  obtain ⟨address, sum, rfl⟩ := Option.map_eq_some_iff.mp moved
  rw [Encoding.add?, Option.ite_none_right_eq_some] at sum
  obtain ⟨inRange, equality⟩ := sum
  cases equality
  have small := header.encoding.greatestAddress.toNat_lt
  rw [UInt64.le_iff_toNat_le, UInt64.toNat_add]
  omega

theorem le_of_advance? (registers : LineRegisters) {operations : UInt64}
    (moved : registers.advance? header operations = some next) :
    registers.address ≤ next.address := by
  unfold advance? at moved
  split_ifs at moved
  · cases moved
    exact UInt64.le_refl _
  · exact le_of_advanceBytes? { registers with operation := 0 } moved
  · exact le_of_advanceBytes?
      { registers with operation := (registers.operation + operations) % header.operations } moved

theorem le_setAddress (address : UInt64) :
    registers.address ≤ (registers.setAddress header address).address := by
  unfold setAddress
  split_ifs with dropped
  · exact UInt64.le_refl _
  · exact UInt64.not_lt.mp (not_or.mp dropped).1

/-- An instruction that goes on with the sequence does not lower the address, and writes a row of
no other address than it leaves behind. -/
theorem step_of_execute? {instruction : LineInstruction} {row : Option LineRow}
    (executed : registers.execute? header instruction = some (row, next))
    (goesOn : instruction ≠ .endSequence) :
    registers.address ≤ next.address ∧ ∀ written ∈ row, written = next.row false := by
  cases instruction with
  | special lines operations =>
      obtain ⟨moved, advanced, equality⟩ := Option.bind_eq_some_iff.mp executed
      cases equality
      exact ⟨le_of_advance? (registers.advanceLine lines) advanced, by simp⟩
  | advance operations =>
      obtain ⟨moved, advanced, equality⟩ := Option.bind_eq_some_iff.mp executed
      cases equality
      exact ⟨le_of_advance? registers advanced, by simp⟩
  | advanceBytes bytes =>
      simp only [execute?] at executed
      split_ifs at executed
      · cases executed
        exact ⟨UInt64.le_refl _, by simp⟩
      · obtain ⟨moved, advanced, equality⟩ := Option.bind_eq_some_iff.mp executed
        cases equality
        exact ⟨le_of_advanceBytes? { registers with operation := 0 } advanced, by simp⟩
  | setAddress address =>
      cases executed
      exact ⟨le_setAddress address, by simp⟩
  | endSequence => exact absurd rfl goesOn
  | writeRow | advanceLine | setFile | setColumn | defineFile | noEffect =>
      cases executed
      exact ⟨UInt64.le_refl _, by simp⟩

/-- Whether no sequence ends in dropped code once it has a row.  `hasRow` says whether it has one
already. -/
def endsKept (header : LineHeader) : Bool → LineRegisters → List LineInstruction → Bool
  | _, _, [] => true
  | hasRow, registers, instruction :: instructions =>
    !(hasRow && registers.isDropped && instruction == .endSequence) &&
      (registers.execute? header instruction).all fun (row, next) =>
        endsKept header
          (instruction != .endSequence && (hasRow || row.isSome && !registers.isDropped))
          next instructions

theorem climb_rows {instructions : List LineInstruction} {hasRow : Bool}
    (kept : endsKept header hasRow registers instructions) :
    LineRow.Climb hasRow registers.address (rows header registers instructions) := by
  induction instructions generalizing registers hasRow with
  | nil => exact ⟨.nil, by simp [rows]⟩
  | cons instruction instructions induction =>
      cases executed : registers.execute? header instruction with
      | none =>
          simp only [rows, executed]
          exact ⟨.nil, by simp⟩
      | some result =>
          obtain ⟨row, next⟩ := result
          simp only [endsKept, executed, Option.all_some, Bool.and_eq_true] at kept
          obtain ⟨keptHere, kept⟩ := kept
          have climb := induction kept
          simp only [rows, executed]
          by_cases isEnd : instruction = .endSequence
          · subst isEnd
            cases executed
            cases dropped : registers.isDropped with
            | true =>
                have hasNone : hasRow = false := by simpa [dropped] using keptHere
                exact ⟨climb.chain, by simp [hasNone]⟩
            | false => exact .cons _ ⟨climb.chain, nofun⟩ (UInt64.le_refl _)
          · obtain ⟨climbs, rowIsNext⟩ := step_of_execute? executed isEnd
            rw [bne_iff_ne.mpr isEnd, Bool.true_and] at climb
            cases dropped : registers.isDropped with
            | true =>
                rw [dropped, Bool.not_true, Bool.and_false, Bool.or_false] at climb
                exact climb.lower climbs
            | false =>
                cases row with
                | none =>
                    rw [Option.isSome_none, Bool.false_and, Bool.or_false] at climb
                    exact climb.lower climbs
                | some row =>
                    cases rowIsNext row rfl
                    rw [dropped, Option.isSome_some, Bool.not_false, Bool.and_true,
                      Bool.or_true] at climb
                    exact .cons (next.row false) climb climbs

end LineRegisters

namespace LineRow

/-- A program that ends no sequence with rows in dropped code has sequences that ascend. -/
theorem ascends_all {header : LineHeader}
    (kept : LineRegisters.endsKept header false (.start []) (LineInstruction.program header)) :
    ∀ sequence ∈ sequences (all header), Ascends sequence := by
  intro sequence member
  have chain := (LineRegisters.climb_rows kept).chain
  have part : sequence <:+: all header := by
    rw [← List.flatten_splitBy (fun row _ => !row.endsSequence) (all header)]
    exact List.infix_of_mem_flatten member
  have climbs := List.IsChain.infix chain part
  have goesOn := goesOn_of_mem member
  apply List.isChain_iff_pairwise.mp
  rw [List.isChain_iff_forall_rel_of_append_cons_cons] at climbs goesOn ⊢
  exact fun _ _ _ _ equality => climbs equality (goesOn equality)

end LineRow

namespace CompilationUnit

def lineSequences (unit : CompilationUnit) : List (List LineRow) :=
  (unit.lines.map fun header => LineRow.sequences (LineRow.all header)).getD []

/-- The position is that of the last row at or below an address in the first sequence that spans
the address.  The row is one that does not end the sequence. -/
def IsPositionOf (unit : CompilationUnit) (address : UInt64) (position : SourcePosition) : Prop :=
  ∃ header sequence row next, unit.lines = some header ∧
    unit.lineSequences.find? (LineRow.spans address) = some sequence ∧
    LineRow.IsLastUpTo address sequence row next ∧ row.endsSequence = false ∧
    position = ⟨unit.filePath? header next.defined row.file, smallNumber row.line.toNat,
      smallNumber row.column⟩

variable {unit : CompilationUnit} {address : UInt64} {position : SourcePosition}

theorem lineSequences_eq {header : LineHeader} (lines : unit.lines = some header) :
    unit.lineSequences = LineRow.sequences (LineRow.all header) := by
  rw [lineSequences, lines, Option.map_some, Option.getD_some]

theorem IsPositionOf.unique {other : SourcePosition} (told : unit.IsPositionOf address position)
    (otherTold : unit.IsPositionOf address other) : position = other := by
  obtain ⟨header, sequence, row, next, lines, first, last, _, rfl⟩ := told
  obtain ⟨header', sequence', row', next', lines', first', last', _, rfl⟩ := otherTold
  cases lines.symm.trans lines'
  cases first.symm.trans first'
  obtain ⟨rfl, rfl⟩ := last.unique last'
  rfl

theorem isSome_position?_iff
    (ascend : ∀ sequence ∈ unit.lineSequences, LineRow.Ascends sequence) :
    (unit.position? address).isSome ↔
      ∃ sequence ∈ unit.lineSequences, LineRow.spans address sequence := by
  cases lines : unit.lines with
  | none => simp [position?, lineSequences, lines]
  | some header =>
      rw [lineSequences_eq lines] at ascend ⊢
      rw [← LineRow.isSome_covering?_iff ascend, position?, lines]
      simp [Option.isSome_bind]

theorem isPositionOf_of_position?
    (ascend : ∀ sequence ∈ unit.lineSequences, LineRow.Ascends sequence)
    (found : unit.position? address = some position) : unit.IsPositionOf address position := by
  obtain ⟨header, lines, found⟩ := Option.bind_eq_some_iff.mp found
  obtain ⟨⟨row, next⟩, covering, equality⟩ := Option.bind_eq_some_iff.mp found
  cases equality
  have sequences := lineSequences_eq lines
  rw [sequences] at ascend
  obtain ⟨sequence, first, last, notEnd⟩ := LineRow.exists_sequence_of_covering? ascend covering
  rw [← sequences] at first
  exact ⟨header, sequence, row, next, lines, first, last, notEnd, rfl⟩

/-- Where the sequences of a unit ascend, it has a position for exactly the addresses that some
sequence spans, and it is the one that the first such sequence gives. -/
theorem position?_exact (unit : CompilationUnit)
    (ascend : ∀ sequence ∈ unit.lineSequences, LineRow.Ascends sequence) (address : UInt64) :
    ((unit.position? address).isSome ↔
        ∃ sequence ∈ unit.lineSequences, LineRow.spans address sequence) ∧
      ∀ position, unit.position? address = some position ↔
        unit.IsPositionOf address position := by
  refine ⟨isSome_position?_iff ascend, fun position => ⟨isPositionOf_of_position? ascend, ?_⟩⟩
  intro told
  have ⟨_, sequence, _, _, _, first, _⟩ := told
  have isSome := (isSome_position?_iff ascend).mpr
    ⟨sequence, List.mem_of_find?_eq_some first, List.find?_some first⟩
  obtain ⟨other, found⟩ := Option.isSome_iff_exists.mp isSome
  rw [found, (isPositionOf_of_position? ascend found).unique told]

/-- A unit with a line program of which each special opcode from 13 on adds up a line from 0 to 3
and four times an address. -/
def ofLineProgram (bytes : ByteArray) : CompilationUnit where
  context := {
    sections := ⟨.little, .empty, .empty, .empty, .empty, .empty, .empty, .empty, .empty, .empty,
      .empty⟩
    encoding := ⟨.four, 4, 2⟩
    bases := ⟨0, 0, 0⟩ }
  entries := ⟨⟨0, ⟨.four, 4, 2⟩, 0, .start .empty .little, Nat.zero_le _⟩, []⟩
  name := none
  directory := none
  lowAddress := 0
  lines := some {
    encoding := ⟨.four, 4, 2⟩
    instructionBytes := 1
    operations := 1
    lineBase := 0
    lineRange := 4
    specialBase := 13
    operands := []
    directories := []
    files := [⟨.text [0x61, 0x2e, 0x63], 0⟩]
    program := .start bytes .little }

/-- Two rows at 20, a sequence of nothing but its end, one that overlaps the first one, one without
an end. -/
def overlappingLines : CompilationUnit := .ofLineProgram ⟨#[
  0, 3, 2, 16, 0, 1, 30, 14, 30, 2, 4, 0, 1, 1,
  0, 3, 2, 32, 0, 0, 1, 1,
  0, 3, 2, 8, 0, 5, 7, 26, 2, 16, 14, 2, 20, 0, 1, 1,
  0, 3, 2, 96, 0, 1, 30]⟩

theorem ascends_overlappingLines :
    ∀ sequence ∈ overlappingLines.lineSequences, LineRow.Ascends sequence :=
  LineRow.ascends_all (by cbv)

theorem position?_overlappingLines :
    (∀ address, ((overlappingLines.position? address).isSome ↔
          ∃ sequence ∈ overlappingLines.lineSequences, LineRow.spans address sequence) ∧
        ∀ position, overlappingLines.position? address = some position ↔
          overlappingLines.IsPositionOf address position) ∧
      [20, 28, 99, 100].map overlappingLines.position? =
        [some ⟨some "a.c", 3, 0⟩, some ⟨some "a.c", 3, 7⟩, some ⟨some "a.c", 1, 0⟩, none] :=
  ⟨position?_exact overlappingLines ascends_overlappingLines, by cbv⟩

end CompilationUnit

end Dwarf

end Symbolization
