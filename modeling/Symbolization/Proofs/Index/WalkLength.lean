import Mathlib.Algebra.Order.Ring.Nat
import Symbolization.Proofs.Dwarf.Entries
import Symbolization.Proofs.Index.Gathering
import Symbolization.Proofs.Session.Requests

/-!
# How long a walk may be

Where units are not well formed two entries may have a child in common, so a walk may come to an entry
more than once.  But children stand behind their parent and no entry stands behind the end of its
unit.  An entry is therefore replaced by entries that together allow for fewer rounds than it did
alone, and the list of the walk gets empty whatever the bytes are.
-/

namespace Symbolization

namespace EntryAnswers

variable {answers : EntryAnswers} {limit : UnitHandle → Nat} {bias : UInt64}

/-- Children stand in the unit of their parent and behind it, one behind the other and below the limit
of the unit. -/
structure Advances (answers : EntryAnswers) (limit : UnitHandle → Nat) : Prop where
  unit : ∀ {parent child}, child ∈ answers.children parent → child.unit = parent.unit
  behind : ∀ {parent child}, child ∈ answers.children parent → parent.offset < child.offset
  below : ∀ {parent child}, child ∈ answers.children parent → child.offset < limit parent.unit
  ascending : ∀ parent, (answers.children parent).Pairwise fun first second =>
    first.offset < second.offset

/-- The number of rounds that are allowed for an entry and all that may be below it.  Every further
offset before the limit doubles it, since its entry may be met on all ways that lead past it. -/
def allowance (limit : UnitHandle → Nat) (entry : EntryHandle) : Nat :=
  2 ^ (limit entry.unit - 1 - entry.offset)

theorem allowance_pos (limit : UnitHandle → Nat) (entry : EntryHandle) :
    0 < allowance limit entry :=
  Nat.two_pow_pos _

theorem two_mul_allowance_le {parent entry : EntryHandle} (unit : entry.unit = parent.unit)
    (behind : parent.offset < entry.offset) (below : entry.offset < limit parent.unit) :
    2 * allowance limit entry ≤ allowance limit parent := by
  have closer : limit entry.unit - 1 - entry.offset + 1 ≤ limit parent.unit - 1 - parent.offset := by
    rw [unit]
    omega
  calc
    2 * allowance limit entry = 2 ^ (limit entry.unit - 1 - entry.offset + 1) := by
      rw [allowance, Nat.pow_succ, Nat.mul_comm]
    _ ≤ allowance limit parent := Nat.pow_le_pow_right (by decide) closer

/-- Entries behind a parent allow for fewer rounds than the parent.  The first of them leaves to those
behind it what it has itself. -/
theorem total_allowance_lt {parent : EntryHandle} {entries : List EntryHandle}
    (ascending : entries.Pairwise fun first second => first.offset < second.offset)
    (unit : ∀ entry ∈ entries, entry.unit = parent.unit)
    (behind : ∀ entry ∈ entries, parent.offset < entry.offset)
    (below : ∀ entry ∈ entries, entry.offset < limit parent.unit) :
    total (entries.map (allowance limit)) < allowance limit parent := by
  induction entries generalizing parent with
  | nil => exact allowance_pos limit parent
  | cons entry entries induction =>
      obtain ⟨first, rest⟩ := List.pairwise_cons.mp ascending
      obtain ⟨own, others⟩ := List.forall_mem_cons.mp unit
      have sameUnit : ∀ other ∈ entries, other.unit = entry.unit := by
        intro other member
        rw [own, others other member]
      have inLimit : ∀ other ∈ entries, other.offset < limit entry.unit := by
        intro other member
        rw [own]
        exact below other (List.mem_cons_of_mem _ member)
      have remaining := induction rest sameUnit first inLimit
      have doubled := two_mul_allowance_le own (behind entry List.mem_cons_self)
        (below entry List.mem_cons_self)
      rw [List.map_cons, total]
      omega

namespace Advances

theorem round (advances : answers.Advances limit) (bias : UInt64) (walk : Gathering) :
    walk.pending = [] ∨ total ((answers.round bias walk).pending.map (allowance limit)) <
      total (walk.pending.map (allowance limit)) := by
  obtain ⟨pending, ranges⟩ := walk
  cases pending with
  | nil => exact .inl rfl
  | cons entry pending =>
      have isChild : ∀ child ∈ answers.openChildren entry, child ∈ answers.children entry :=
        fun child member => (List.mem_filter.mp member).1
      have fewer : total ((answers.openChildren entry).map (allowance limit)) <
          allowance limit entry := by
        apply total_allowance_lt
        · exact (advances.ascending entry).filter _
        · intro child member
          exact advances.unit (isChild child member)
        · intro child member
          exact advances.behind (isChild child member)
        · intro child member
          exact advances.below (isChild child member)
      right
      rw [round_cons]
      simp only [List.map_append, List.map_reverse, List.map_cons, total_append, total_reverse,
        total]
      omega

/-- The list of a walk is empty after as many rounds as are allowed for its entries. -/
theorem pending_iterate (advances : answers.Advances limit) {walk : Gathering} {rounds : Nat}
    (enough : total (walk.pending.map (allowance limit)) ≤ rounds) :
    ((answers.round bias)^[rounds] walk).pending = [] := by
  induction rounds generalizing walk with
  | zero =>
      obtain none | fewer := advances.round bias walk
      · exact none
      · omega
  | succ rounds induction =>
      rw [Function.iterate_succ_apply]
      apply induction
      obtain none | fewer := advances.round bias walk
      · have rests : answers.round bias walk = walk := by rw [EntryAnswers.round, none]
        rw [rests, none]
        exact Nat.zero_le _
      · omega

theorem iterate_eq (advances : answers.Advances limit) {root : EntryHandle}
    {ranges : List AddressInterval} (ends : answers.Ends bias root ranges) {rounds : Nat}
    (enough : allowance limit root ≤ rounds) :
    (answers.round bias)^[rounds] ⟨[root], []⟩ = ⟨[], ranges⟩ := by
  have none : ((answers.round bias)^[rounds] ⟨[root], []⟩).pending = [] := by
    apply advances.pending_iterate
    rwa [List.map_singleton, total, total, Nat.add_zero]
  cases reached : (answers.round bias)^[rounds] ⟨[root], []⟩ with
  | mk pending found =>
      rw [reached] at none
      subst none
      rw [ends.unique ⟨rounds, reached⟩]

end Advances

end EntryAnswers

namespace ImageSession

theorem advances (session : ImageSession) :
    session.view.entryAnswers.Advances session.limit where
  unit member := (session.mem_children member).1
  behind member := (session.mem_children member).2.1
  below member := (session.mem_children member).2.2
  ascending parent := by
    change (session.children parent).Pairwise _
    unfold children
    split
    · exact .nil
    · rename_i image unit found
      exact List.pairwise_map.mpr (unit.entries.pairwise_children parent.offset)

end ImageSession

namespace Dwarf

/-- A unit with a routine that tells the entry behind it to be both its sibling and, by its place, its
child. -/
def sharedEntry : Sections where
  endian := .little
  info := ⟨#[0x11, 0, 0, 0, 4, 0, 0, 0, 0, 0, 4, 1, 2, 14, 3, 0, 0x10, 0, 0, 0x10, 0]⟩
  abbreviations := ⟨#[1, 0x11, 1, 0, 0, 2, 0x2e, 1, 1, 0x11, 0, 0,
    3, 0x2e, 0, 0x11, 0x01, 0x12, 0x0b, 0, 0, 0]⟩
  lines := .empty
  texts := .empty
  lineTexts := .empty
  textOffsets := .empty
  addresses := .empty
  ranges := .empty
  rangeLists := .empty
  addressTable := .empty

theorem children_sharedEntry : ∃ unit ∈ CompilationUnit.all sharedEntry,
    unit.entries.children 11 = [12, 14] ∧ unit.entries.children 12 = [14] := by
  have children : ((CompilationUnit.all sharedEntry).map fun unit =>
      (unit.entries.children 11, unit.entries.children 12)) = [([12, 14], [14])] := by
    decide +kernel
  have found : ([12, 14], [14]) ∈ (CompilationUnit.all sharedEntry).map fun unit =>
      (unit.entries.children 11, unit.entries.children 12) := by
    rw [children]
    exact List.mem_singleton_self _
  obtain ⟨unit, member, pair⟩ := List.mem_map.mp found
  exact ⟨unit, member, Prod.mk.inj pair⟩

end Dwarf

namespace ImageSession

open Dwarf (Sections CompilationUnit)

/-- Whatever the sections hold, children stand behind their parent and among the entries of its unit,
although not every entry is the child of one parent only.  The walk over a unit therefore comes to its
end, with the ranges that are gathered from the unit. -/
theorem gathering_ends :
    (∀ (sections : Sections) (unit : CompilationUnit), unit ∈ CompilationUnit.all sections →
      ∀ parent child, child ∈ unit.entries.children parent →
        parent < child ∧ unit.entries.header.holds child) ∧
    (∀ (session : ImageSession) (handle : UnitHandle) (bias : UInt64) (root : EntryHandle),
      session.view.root handle = some root →
        ∀ rounds, EntryAnswers.allowance session.limit root ≤ rounds →
          (session.view.entryAnswers.round bias)^[rounds] ⟨[root], []⟩ =
            ⟨[], (RangeSet.build session.view handle bias).ranges⟩) ∧
    ∃ sections, ∃ unit ∈ CompilationUnit.all sections, ∃ first second child, first ≠ second ∧
      child ∈ unit.entries.children first ∧ child ∈ unit.entries.children second := by
  refine ⟨?_, ?_, ?_⟩
  · intro sections unit _ parent child member
    exact ⟨(Dwarf.Entries.bounds_of_mem_children member).1,
      Dwarf.Entries.holds_of_mem_children member⟩
  · intro session handle bias root found rounds enough
    have ends : session.view.entryAnswers.Ends bias root
        (RangeSet.build session.view handle bias).ranges := by
      rw [RangeSet.build, found]
      exact (session.view.leads_gather bias [root]).ends
    exact session.advances.iterate_eq ends enough
  · obtain ⟨unit, member, ofRoot, ofRoutine⟩ := Dwarf.children_sharedEntry
    exact ⟨Dwarf.sharedEntry, unit, member, 11, 12, 14, by decide, by simp [ofRoot],
      by simp [ofRoutine]⟩

def withSharedEntry : ImageSession :=
  run (.new fun _ => .error .notFound)
    [.reportBegin,
      .reportImage { bareImage "libfoo.so" 0x1000 0x1000 with debug := .ofSections Dwarf.sharedEntry },
      .reportEnd]

/-- The walk meets the shared entry twice and gathers its range twice. -/
theorem gathering_withSharedEntry :
    (∃ unit ∈ CompilationUnit.all Dwarf.sharedEntry, 14 ∈ unit.entries.children 12 ∧
      12 < 14 ∧ unit.entries.header.holds 14) ∧
    withSharedEntry.view.root ⟨⟨1⟩, 0⟩ = some ⟨⟨⟨1⟩, 0⟩, 11⟩ ∧
    EntryAnswers.allowance withSharedEntry.limit ⟨⟨⟨1⟩, 0⟩, 11⟩ = 512 ∧
    (withSharedEntry.view.entryAnswers.round 0)^[512] ⟨[⟨⟨⟨1⟩, 0⟩, 11⟩], []⟩ =
      ⟨[], [⟨0x1000, 0x1010⟩, ⟨0x1000, 0x1010⟩]⟩ := by
  obtain ⟨inUnit, ends, -⟩ := gathering_ends
  have root : withSharedEntry.view.root ⟨⟨1⟩, 0⟩ = some ⟨⟨⟨1⟩, 0⟩, 11⟩ := by decide +kernel
  have allowed : EntryAnswers.allowance withSharedEntry.limit ⟨⟨⟨1⟩, 0⟩, 11⟩ = 512 := by
    decide +kernel
  have ranges : (RangeSet.build withSharedEntry.view ⟨⟨1⟩, 0⟩ 0).ranges =
      [⟨0x1000, 0x1010⟩, ⟨0x1000, 0x1010⟩] := by
    decide +kernel
  refine ⟨?_, root, allowed, ?_⟩
  · obtain ⟨unit, member, -, ofRoutine⟩ := Dwarf.children_sharedEntry
    have isChild : 14 ∈ unit.entries.children 12 := by simp [ofRoutine]
    exact ⟨unit, member, isChild, inUnit _ unit member 12 14 isChild⟩
  · rw [← ranges]
    exact ends withSharedEntry ⟨⟨1⟩, 0⟩ 0 _ root 512 (Nat.le_of_eq allowed)

end ImageSession

end Symbolization
