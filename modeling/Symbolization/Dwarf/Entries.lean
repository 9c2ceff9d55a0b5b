import Symbolization.Dwarf.Entry

/-!
# The entries of a unit

The entries of a unit stand one behind the other, each before its children.  A zero code ends the
children of an entry.  The entries are read as one flat stream with changes of level, or level by level: an
entry may tell where its next sibling starts, which spares reading its descendants.

Both ways only move forward, so they end on every input.
-/

namespace Symbolization

namespace Dwarf

/-- The entries of a unit with the abbreviations that they are written by. -/
structure Entries where
  header : UnitHeader
  abbreviations : List Abbreviation

namespace Entries

/-- The code of an entry as its abbreviation, or nothing at the zero that ends a list of children. -/
def code (entries : Entries) : Reader (Option Abbreviation) := do
  let code ← Reader.unsigned
  if code = 0 then return none
  else return some (← Reader.ofOption (entries.abbreviations.find? (·.code == code)))

theorem code_consumes (entries : Entries) : entries.code.Consumes :=
  Reader.unsigned_consumes.bind _

def offsetOf (entries : Entries) (place : Cursor) : Nat := place.position - entries.header.offset

def entryAt (entries : Entries) (place : Cursor) (abbreviation : Abbreviation)
    (values : Cursor) : Entry :=
  ⟨entries.offsetOf place, entries.header.encoding, abbreviation, values⟩

def get? (entries : Entries) (offset : Nat) : Option Entry := do
  let place ← entries.header.place? offset
  match entries.code.run place with
  | some (some abbreviation, values) => some (entries.entryAt place abbreviation values)
  | _ => none

theorem remaining_end_lt {entries : Entries} {place values next : Cursor}
    {abbreviation : Abbreviation}
    (read : entries.code.run place = some (some abbreviation, values))
    (found : (entries.entryAt place abbreviation values).end? = some next) :
    next.remaining < place.remaining :=
  Nat.lt_of_le_of_lt (Entry.reaches_of_end? found).remaining_le
    (entries.code_consumes.remaining_lt read)

/-- The entries from a place on, up to the first thing that cannot be read, each with how many
levels it lies below the entry before it.  `delta` is what was passed since that entry: one level
down into its children, and one up for every zero code. -/
def stream (entries : Entries) (place : Cursor) (delta : Int) : List (Int × Entry) :=
  match _ : entries.code.run place with
  | none => []
  | some (none, next) => stream entries next (delta - 1)
  | some (some abbreviation, values) =>
    (delta, entries.entryAt place abbreviation values) ::
      match _ : (entries.entryAt place abbreviation values).end? with
      | none => []
      | some next => stream entries next (if abbreviation.hasChildren then 1 else 0)
  termination_by place.remaining
  decreasing_by
    · exact entries.code_consumes.remaining_lt (by assumption)
    · exact remaining_end_lt (by assumption) (by assumption)

/-- All entries of the unit with the changes of level between them. -/
def all (entries : Entries) : List (Int × Entry) := entries.stream entries.header.entries 0

def root? (entries : Entries) : Option Entry := entries.all.head?.map (·.2)

/-- The place of the next sibling as an entry itself tells it, if that lies behind the entry and
inside the unit. -/
def sibling? (place : Cursor) (entry : Entry) : Option Cursor :=
  match entry.value? .sibling with
  | some (.unitReference target) =>
    if entry.offset < target then
      match place.skip? (target - entry.offset) with
      | some next => if next.atEnd then none else some next
      | none => none
    else none
  | _ => none

/-- Where the walk over siblings goes on behind an entry, and how many levels below it that is. -/
def next? (place : Cursor) (entry : Entry) : Option (Cursor × Nat) :=
  if entry.abbreviation.hasChildren then
    match sibling? place entry with
    | some next => some (next, 0)
    | none => entry.end?.map fun next => (next, 1)
  else entry.end?.map fun next => (next, 0)

theorem reaches_of_sibling? {place next : Cursor} {entry : Entry}
    (found : sibling? place entry = some next) :
    place.Reaches next ∧ place.position < next.position := by
  unfold sibling? at found
  split at found
  · rename_i target value
    split at found
    · rename_i behind
      split at found
      · rename_i skipped equality
        split at found
        · contradiction
        · cases found
          refine ⟨Cursor.reaches_of_skip? equality, ?_⟩
          rw [Cursor.position_of_skip? equality]
          omega
      · contradiction
    · contradiction
  · contradiction

theorem reaches_of_next? {entries : Entries} {place values next : Cursor}
    {abbreviation : Abbreviation} {deeper : Nat}
    (read : entries.code.run place = some (some abbreviation, values))
    (found : next? place (entries.entryAt place abbreviation values) = some (next, deeper)) :
    place.Reaches next ∧ place.position < next.position := by
  have behind : ∀ {last}, (entries.entryAt place abbreviation values).end? = some last →
      place.Reaches last ∧ place.position < last.position := fun equality =>
    ⟨(entries.code.reaches read).trans (Entry.reaches_of_end? equality),
      Nat.lt_of_lt_of_le (entries.code_consumes read) (Entry.reaches_of_end? equality).position⟩
  unfold next? at found
  split at found
  · split at found
    · rename_i sibling equality
      cases found
      exact reaches_of_sibling? equality
    · obtain ⟨last, equality, pair⟩ := Option.map_eq_some_iff.mp found
      cases pair
      exact behind equality
  · obtain ⟨last, equality, pair⟩ := Option.map_eq_some_iff.mp found
    cases pair
    exact behind equality

/-- The offsets of the entries from a place on that are at the level at which the walk began.
`level` tells how many levels the place is below it. -/
def siblings (entries : Entries) (place : Cursor) (level : Nat) : List Nat :=
  match _ : entries.code.run place with
  | none => []
  | some (none, next) =>
    match level with
    | 0 => []
    | level + 1 => siblings entries next level
  | some (some abbreviation, values) =>
    (if level = 0 then [entries.offsetOf place] else []) ++
      match _ : next? place (entries.entryAt place abbreviation values) with
      | none => []
      | some (next, deeper) => siblings entries next (level + deeper)
  termination_by place.remaining
  decreasing_by
    · exact entries.code_consumes.remaining_lt (by assumption)
    · have moved := reaches_of_next? (by assumption) (by assumption)
      exact moved.1.remaining_lt moved.2

def children (entries : Entries) (offset : Nat) : List Nat :=
  match entries.get? offset with
  | none => []
  | some entry =>
    if entry.abbreviation.hasChildren then
      match entry.end? with
      | none => []
      | some place => entries.siblings place 0
    else []

/-- A place in the area of a unit at which something was read lies inside the unit. -/
theorem offsetOf_lt_limit {entries : Entries} {place next : Cursor}
    (inside : entries.header.entries.Reaches place) (moved : place.position < next.position)
    (reaches : place.Reaches next) : entries.offsetOf place < entries.header.limit := by
  have start := entries.header.offset_le
  have position := inside.position
  have bound := next.position_le
  have same := reaches.limit.trans inside.limit
  simp only [offsetOf, UnitHeader.limit]
  omega

theorem offsetOf_le_offsetOf {entries : Entries} {place next : Cursor}
    (reaches : place.Reaches next) : entries.offsetOf place ≤ entries.offsetOf next := by
  have position := reaches.position
  simp only [offsetOf]
  omega

theorem bounds_of_mem_siblings {entries : Entries} {place : Cursor} {level offset : Nat}
    (inside : entries.header.entries.Reaches place)
    (member : offset ∈ entries.siblings place level) :
    entries.offsetOf place ≤ offset ∧ offset < entries.header.limit := by
  fun_induction entries.siblings place level generalizing offset with
  | case1 => contradiction
  | case2 => contradiction
  | case3 place next read level induction =>
      have reaches := entries.code.reaches read
      have bounds := induction (inside.trans reaches) member
      exact ⟨Nat.le_trans (offsetOf_le_offsetOf reaches) bounds.1, bounds.2⟩
  | case4 place level abbreviation values read induction =>
      rcases List.mem_append.mp member with here | behind
      · have found : offset = entries.offsetOf place := by
          split at here <;> simp_all
        subst found
        exact ⟨Nat.le_refl _, offsetOf_lt_limit inside (entries.code_consumes read)
          (entries.code.reaches read)⟩
      · split at behind
        · contradiction
        · rename_i next deeper found
          have reaches := (reaches_of_next? read found).1
          have bounds := induction next deeper found (inside.trans reaches) behind
          exact ⟨Nat.le_trans (offsetOf_le_offsetOf reaches) bounds.1, bounds.2⟩

/-- Children come after their parent and inside the unit. -/
theorem bounds_of_mem_children {entries : Entries} {parent child : Nat}
    (member : child ∈ entries.children parent) :
    parent < child ∧ child < entries.header.limit := by
  unfold children at member
  split at member
  · contradiction
  · rename_i entry got
    split at member
    · split at member
      · contradiction
      · rename_i next behind
        simp only [get?, Option.bind_eq_bind, Option.bind_eq_some_iff] at got
        obtain ⟨place, placed, got⟩ := got
        split at got
        · rename_i abbreviation values read
          cases got
          have start := UnitHeader.reaches_of_place? placed
          have reaches := (entries.code.reaches read).trans (Entry.reaches_of_end? behind)
          have moved := entries.code_consumes read
          have further := (Entry.reaches_of_end? behind).position
          have bounds := bounds_of_mem_siblings (start.1.trans reaches) member
          refine ⟨Nat.lt_of_lt_of_le ?_ bounds.1, bounds.2⟩
          have position := start.2
          simp only [entryAt] at further
          simp only [offsetOf]
          omega
        · contradiction
    · contradiction

end Entries

end Dwarf

end Symbolization
