import Mathlib.Data.List.Permutation
import Symbolization.Proofs.Index.Boxes
import Symbolization.Session.InMemory

/-!
# What the index of a module finds

The index looks at boxes before it looks at ranges.  A box rules an address out that a range holds
only where the range starts at zero, which boxes take for no start at all, and every other range
around which the box lies starts behind the address.  Everywhere else the index finds the first
unit of which a gathered range holds the address.
-/

namespace Symbolization

/-- Whether some interval starts at an address other than zero, but only behind the address. -/
def AddressInterval.startBehind (intervals : List AddressInterval) (address : UInt64) : Bool :=
  intervals.any (·.low != 0) && intervals.all fun interval =>
    interval.low == 0 || decide (address < interval.low)

namespace DebugView

def gathered (view : DebugView) (owned : OwnedUnit) : List AddressInterval :=
  (RangeSet.build view owned.unit owned.bias).ranges

/-- Whether some range that is gathered from the unit holds the address. -/
def holds (view : DebugView) (address : UInt64) (owned : OwnedUnit) : Bool :=
  (view.gathered owned).any (·.contains address)

/-- The first unit of a module of which a gathered range holds the address. -/
def scan? (view : DebugView) (module : ModuleHandle) (address : UInt64) : Option OwnedUnit :=
  (view.units module).find? (view.holds address)

/-- Whether the boxes rule the address out for a unit: all ranges of the unit, or all ranges of the
module, start behind the address, except for those that start at zero. -/
def hides (view : DebugView) (module : ModuleHandle) (address : UInt64) (owned : OwnedUnit) :
    Bool :=
  AddressInterval.startBehind (view.gathered owned) address ||
    AddressInterval.startBehind ((view.units module).flatMap view.gathered) address

end DebugView

namespace AddressInterval

theorem startBehind_iff {intervals : List AddressInterval} {start : UInt64}
    (least : IsLeastStart (intervals.map low) start) (address : UInt64) :
    startBehind intervals address = true ↔ address < start := by
  simp only [startBehind, Bool.and_eq_true, List.any_eq_true, List.all_eq_true, Bool.or_eq_true,
    bne_iff_ne, beq_iff_eq, decide_eq_true_eq]
  constructor
  · rintro ⟨⟨interval, member, isSet⟩, behind⟩
    have startSet := (least.le _ (List.mem_map_of_mem member) isSet).1
    obtain ⟨first, firstMember, rfl⟩ := List.mem_map.mp (least.mem startSet)
    exact (behind first firstMember).resolve_left startSet
  · intro before
    have startSet : start ≠ 0 := by
      rintro rfl
      exact UInt64.not_lt_zero before
    obtain ⟨first, firstMember, firstLow⟩ := List.mem_map.mp (least.mem startSet)
    refine ⟨⟨first, firstMember, firstLow ▸ startSet⟩, ?_⟩
    intro interval member
    by_cases unset : interval.low = 0
    · exact .inl unset
    · have bound := (least.le _ (List.mem_map_of_mem member) unset).2
      exact .inr (UInt64.lt_of_lt_of_le before bound)

theorem startBehind_eq_false {intervals : List AddressInterval} {interval : AddressInterval}
    {address : UInt64} (member : interval ∈ intervals) (isSet : interval.low ≠ 0)
    (inside : interval.contains address = true) : startBehind intervals address = false := by
  cases behind : startBehind intervals address with
  | false => rfl
  | true =>
      simp only [startBehind, Bool.and_eq_true, List.all_eq_true] at behind
      have before : address < interval.low := by
        simpa [isSet] using behind.2 interval member
      exact absurd (contains_iff.mp inside).1 (UInt64.not_le.mpr before)

end AddressInterval

open AddressInterval (startBehind IsBox)

namespace RangeSet

/-- A range set holds what its ranges hold, unless its box starts behind the address. -/
theorem contains_build (view : DebugView) (owned : OwnedUnit) (address : UInt64) :
    (build view owned.unit owned.bias).contains address =
      (view.holds address owned && !startBehind (view.gathered owned) address) := by
  have box := isBox_build view owned.unit owned.bias
  have behind : startBehind (view.gathered owned) address = true ↔
      address < (build view owned.unit owned.bias).bounds.low :=
    AddressInterval.startBehind_iff box.low address
  unfold contains
  cases held : view.holds address owned with
  | false =>
      have none : (build view owned.unit owned.bias).ranges.any (·.contains address) = false :=
        held
      simp [none]
  | true =>
      have some : (build view owned.unit owned.bias).ranges.any (·.contains address) = true := held
      obtain ⟨interval, member, inside⟩ := List.any_eq_true.mp held
      have below : address < (build view owned.unit owned.bias).bounds.high :=
        UInt64.lt_of_lt_of_le (AddressInterval.contains_iff.mp inside).2 (box.high_le member)
      rw [some, Bool.and_true, Bool.true_and, Bool.eq_iff_iff]
      simp only [AddressInterval.contains, below, decide_true, Bool.and_true, decide_eq_true_eq,
        Bool.not_eq_true', ← Bool.not_eq_true, behind, UInt64.not_lt]

end RangeSet

namespace ModuleIndex

theorem find?_sets (view : DebugView) (module : ModuleHandle) (address : UInt64) :
    ((build view module).sets.find? (·.contains address)).map (fun set => ⟨set.unit, set.bias⟩) =
      (view.units module).find? fun owned =>
        (RangeSet.build view owned.unit owned.bias).contains address := by
  have nonempty : ∀ set : RangeSet, (!set.isEmpty && set.contains address) =
      set.contains address := by
    intro set
    cases held : set.contains address with
    | false => simp
    | true =>
        simp only [RangeSet.contains, Bool.and_eq_true, List.any_eq_true] at held
        obtain ⟨_, interval, member, _⟩ := held
        have filled := List.ne_nil_of_mem member
        simpa [RangeSet.isEmpty] using filled
  simp only [build, ofUnits, List.find?_filter, Bool.decide_and, Bool.decide_eq_true, nonempty,
    List.find?_map, Option.map_map, Function.comp_def]
  exact Option.map_id'

/-- The box around all ranges that are gathered from a module. -/
theorem isBox_bounds (view : DebugView) (module : ModuleHandle) :
    IsBox ((view.units module).flatMap view.gathered) (build view module).bounds :=
  isBox_build view module

theorem lt_high_bounds {view : DebugView} {module : ModuleHandle} {address : UInt64}
    {owned : OwnedUnit} (member : owned ∈ view.units module)
    (held : view.holds address owned = true) : address < (build view module).bounds.high := by
  obtain ⟨interval, inside, contains⟩ := List.any_eq_true.mp held
  have gathered : interval ∈ (view.units module).flatMap view.gathered :=
    List.mem_flatMap.mpr ⟨owned, member, inside⟩
  exact UInt64.lt_of_lt_of_le (AddressInterval.contains_iff.mp contains).2
    ((isBox_bounds view module).high_le gathered)

/-- The index finds the first unit that holds the address and for which no box rules it out. -/
theorem findUnit_eq_find? (view : DebugView) (module : ModuleHandle) (address : UInt64) :
    (build view module).findUnit address =
      (view.units module).find? fun owned =>
        view.holds address owned && !view.hides module address owned := by
  have behind := AddressInterval.startBehind_iff (isBox_bounds view module).low address
  unfold findUnit
  rw [find?_sets]
  split
  · rename_i inside
    have shown : startBehind ((view.units module).flatMap view.gathered) address = false := by
      rw [← Bool.not_eq_true, behind]
      exact UInt64.not_lt.mpr (AddressInterval.contains_iff.mp inside).1
    simp only [RangeSet.contains_build, DebugView.hides, shown, Bool.or_false]
  · rename_i outside
    symm
    rw [List.find?_eq_none]
    intro owned member found
    simp only [Bool.and_eq_true, DebugView.hides, Bool.not_eq_true', Bool.or_eq_false_iff] at found
    obtain ⟨held, _, shown⟩ := found
    apply outside
    rw [← Bool.not_eq_true, behind, UInt64.not_lt] at shown
    simp [AddressInterval.contains, shown, lt_high_bounds member held]

theorem findUnit_eq_scan?_iff (view : DebugView) (module : ModuleHandle) (address : UInt64) :
    (build view module).findUnit address = view.scan? module address ↔
      ∀ owned, view.scan? module address = some owned →
        view.hides module address owned = false := by
  rw [findUnit_eq_find?]
  constructor
  · intro same owned found
    rw [found] at same
    have shown := List.find?_some same
    simp only [Bool.and_eq_true, Bool.not_eq_true'] at shown
    exact shown.2
  · intro shown
    cases found : view.scan? module address with
    | none =>
        rw [List.find?_eq_none]
        intro owned member holds
        have held := List.find?_eq_none.mp found owned member
        simp only [Bool.and_eq_true] at holds
        exact held holds.1
    | some owned =>
        obtain ⟨held, before, after, split, missed⟩ := List.find?_eq_some_iff_append.mp found
        rw [List.find?_eq_some_iff_append]
        refine ⟨by simp [held, shown owned found], before, after, split, ?_⟩
        intro earlier member
        simp [missed earlier member]

theorem hides_eq_false {view : DebugView} {module : ModuleHandle} {address : UInt64}
    {owned : OwnedUnit} (member : owned ∈ view.units module) {range : AddressInterval}
    (gathered : range ∈ view.gathered owned) (isSet : range.low ≠ 0)
    (inside : range.contains address = true) : view.hides module address owned = false := by
  have ofModule : range ∈ (view.units module).flatMap view.gathered :=
    List.mem_flatMap.mpr ⟨owned, member, gathered⟩
  simp [DebugView.hides, AddressInterval.startBehind_eq_false gathered isSet inside,
    AddressInterval.startBehind_eq_false ofModule isSet inside]

/-- The index of a module finds the first unit that holds the address and that no box rules out.
That is the first unit that holds the address exactly if the boxes do not rule this one out, which
they never do if no gathered range starts at zero. -/
theorem findUnit_build (view : DebugView) (module : ModuleHandle) (address : UInt64) :
    ((build view module).findUnit address =
        (view.units module).find? fun owned =>
          view.holds address owned && !view.hides module address owned) ∧
      ((build view module).findUnit address = view.scan? module address ↔
        ∀ owned, view.scan? module address = some owned →
          view.hides module address owned = false) ∧
      ((∀ owned ∈ view.units module, ∀ range ∈ view.gathered owned, range.low ≠ 0) →
        (build view module).findUnit address = view.scan? module address) := by
  refine ⟨findUnit_eq_find? view module address, findUnit_eq_scan?_iff view module address, ?_⟩
  intro startsSet
  rw [findUnit_eq_scan?_iff]
  intro owned found
  have member : owned ∈ view.units module := List.mem_of_find?_eq_some found
  have held : view.holds address owned = true := List.find?_some found
  obtain ⟨range, gathered, inside⟩ := List.any_eq_true.mp held
  exact hides_eq_false member gathered (startsSet owned member range gathered) inside

end ModuleIndex

namespace InMemorySession

/-- One module with a routine whose code lies at zero and at 0x200. -/
def withCodeAtZero : InMemorySession :=
  let routine : MemoryEntry :=
    { parent := 0
      tag := .subprogram
      name := none
      ranges := [⟨0, 0x100⟩, ⟨0x200, 0x300⟩]
      isDeclaration := false
      callSite := .unknown }
  .ofModules [{
    name := "libfoo.so"
    bias := 0
    extent := ⟨0, 0x1000⟩
    symbols := []
    units := [(MemoryUnit.new 0).addEntry routine (by decide)]
    assignments := []
    isVisible := true }]

/-- The box of the unit starts at 0x200, so the code at zero is not found. -/
theorem findUnit_withCodeAtZero :
    withCodeAtZero.view.scan? ⟨1⟩ 0x50 = some ⟨⟨⟨1⟩, 0⟩, 0⟩ ∧
      (ModuleIndex.build withCodeAtZero.view ⟨1⟩).findUnit 0x50 = none := by
  constructor
  · cbv
  · cbv

end InMemorySession

end Symbolization
