import Mathlib.Tactic.Tauto
import Symbolization.Index.ModuleIndex
import Symbolization.Proofs.Address.BoundingBox

/-!
# The boxes of an index

The box of a unit lies around its gathered ranges, and the box of a module around those of all its
units, although it was made of boxes.
-/

namespace Symbolization

open AddressInterval (IsBox Covering)

theorem RangeSet.isBox_build (view : DebugView) (unit : UnitHandle) (bias : UInt64) :
    IsBox (build view unit bias).ranges (build view unit bias).bounds :=
  IsBox.foldl_cover _

namespace ModuleIndex

theorem flatMap_ranges_filter (sets : List RangeSet) :
    (sets.filter fun set => !set.isEmpty).flatMap (·.ranges) = sets.flatMap (·.ranges) := by
  induction sets with
  | nil => rfl
  | cons set sets induction =>
      rw [List.filter_cons, List.flatMap_cons, ← induction]
      cases empty : set.isEmpty with
      | false => rfl
      | true =>
          have nothing : set.ranges = [] := List.isEmpty_iff.mp empty
          rw [nothing]
          rfl

theorem isBox_build (view : DebugView) (module : ModuleHandle) :
    IsBox ((view.units module).flatMap fun owned =>
        (RangeSet.build view owned.unit owned.bias).ranges)
      (build view module).bounds := by
  have each : ∀ set ∈ (build view module).sets, IsBox set.ranges set.bounds := by
    intro set member
    obtain ⟨owned, -, rfl⟩ := List.mem_map.mp (List.mem_filter.mp member).1
    exact RangeSet.isBox_build view owned.unit owned.bias
  have ranges : (build view module).sets.flatMap (·.ranges) =
      (view.units module).flatMap fun owned =>
        (RangeSet.build view owned.unit owned.bias).ranges := by
    rw [build, ofUnits, flatMap_ranges_filter, List.flatMap_map]
  rw [← ranges]
  exact IsBox.of_groups each

/-- The boxes of units and modules are those around all that was gathered below them.  Any other way
to cover the same intervals leads to the same box. -/
theorem bounds_exact :
    (∀ (view : DebugView) (unit : UnitHandle) (bias : UInt64),
      IsBox (RangeSet.build view unit bias).ranges (RangeSet.build view unit bias).bounds) ∧
    (∀ (view : DebugView) (module : ModuleHandle),
      IsBox ((view.units module).flatMap fun owned =>
          (RangeSet.build view owned.unit owned.bias).ranges)
        (build view module).bounds) ∧
    (∀ groups : List (List AddressInterval),
      IsBox groups.flatten
        ((groups.map (·.foldl .cover .unset)).foldl .cover .unset)) ∧
    (∀ covering : Covering, IsBox covering.intervals covering.box) ∧
    (∀ left right : Covering,
      (∀ interval, interval ∈ left.intervals ↔ interval ∈ right.intervals) →
        left.box = right.box) ∧
    Std.Associative AddressInterval.cover ∧
    Std.Commutative AddressInterval.cover ∧
    Std.IdempotentOp AddressInterval.cover ∧
    Std.LawfulIdentity AddressInterval.cover .unset := by
  refine ⟨RangeSet.isBox_build, isBox_build, ?_, Covering.isBox_box, ?_, inferInstance,
    inferInstance, inferInstance, inferInstance⟩
  · intro groups
    have box := IsBox.of_groups fun group (_ : group ∈ groups) => IsBox.foldl_cover group
    rwa [List.flatMap_id'] at box
  · intro left right same
    exact Covering.box_eq same

/-- In one order, and in another one with a repetition, the code at zero is not seen by the box. -/
theorem bounds_withCodeAtZero :
    let once : Covering := .cover (.one ⟨0, 0x100⟩) (.cover (.one ⟨0x200, 0x300⟩) .unset)
    let twice : Covering :=
      .cover (.cover (.one ⟨0x200, 0x300⟩) (.one ⟨0, 0x100⟩)) (.one ⟨0x200, 0x300⟩)
    (∀ interval, interval ∈ once.intervals ↔ interval ∈ twice.intervals) ∧
      once.box = twice.box ∧ once.box = ⟨0x200, 0x300⟩ := by
  intro once twice
  have same : ∀ interval, interval ∈ once.intervals ↔ interval ∈ twice.intervals := by
    intro interval
    simp only [once, twice, Covering.intervals, List.mem_append, List.mem_singleton,
      List.not_mem_nil, or_false]
    tauto
  obtain ⟨-, -, -, -, alike, -⟩ := bounds_exact
  exact ⟨same, alike once twice same, by decide⟩

end ModuleIndex

end Symbolization
