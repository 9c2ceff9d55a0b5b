import Symbolization.Index.ModuleIndex
import Symbolization.Proofs.Session.Lawful
import Mathlib.Data.List.Basic

/-!
# Modules that mirror each other

Views may know the same module under different handles.  A module of one view mirrors a module of
another one if the answers about the two are the same but for the handles in them.  What is gathered
from the code of the modules is the same then, and their indexes find the same units.
-/

namespace Symbolization

/-- The unit at the same place of another module. -/
def UnitHandle.moveTo (unit : UnitHandle) (module : ModuleHandle) : UnitHandle :=
  { unit with module }

/-- The entry at the same place of another module. -/
def EntryHandle.moveTo (entry : EntryHandle) (module : ModuleHandle) : EntryHandle :=
  { entry with unit := entry.unit.moveTo module }

/-- The unit at the same place of another module that was moved as far. -/
def OwnedUnit.moveTo (owned : OwnedUnit) (module : ModuleHandle) : OwnedUnit :=
  { owned with unit := owned.unit.moveTo module }

theorem UnitHandle.moveTo_self {unit : UnitHandle} {module : ModuleHandle}
    (inside : unit.module = module) : unit.moveTo module = unit := by
  subst inside
  rfl

theorem EntryHandle.moveTo_self {entry : EntryHandle} {module : ModuleHandle}
    (inside : entry.unit.module = module) : entry.moveTo module = entry := by
  subst inside
  rfl

theorem OwnedUnit.moveTo_self {owned : OwnedUnit} {module : ModuleHandle}
    (inside : owned.unit.module = module) : owned.moveTo module = owned := by
  subst inside
  rfl

namespace DebugView

/-- What the right view answers about the code of a module, the left one answers about another
module, but for the handles. -/
structure MirrorsCode (left : DebugView) (module : ModuleHandle) (right : DebugView)
    (other : ModuleHandle) : Prop where
  units : right.units other = (left.units module).map (·.moveTo other)
  root : ∀ {unit : UnitHandle}, unit.module = module →
    right.root (unit.moveTo other) = (left.root unit).map (·.moveTo other)
  children : ∀ {entry : EntryHandle}, entry.unit.module = module →
    right.children (entry.moveTo other) = (left.children entry).map (·.moveTo other)
  tag : ∀ {entry : EntryHandle}, entry.unit.module = module →
    right.tag (entry.moveTo other) = left.tag entry
  isDeclaration : ∀ {entry : EntryHandle}, entry.unit.module = module →
    right.isDeclaration (entry.moveTo other) = left.isDeclaration entry
  ranges : ∀ {entry : EntryHandle}, entry.unit.module = module →
    right.ranges (entry.moveTo other) = left.ranges entry

theorem child_module (view : DebugView) {parent child : EntryHandle}
    (member : child ∈ view.children parent) : child.unit.module = parent.unit.module := by
  rw [view.child_unit member]

/-- A view that agrees with another one on a module has the module as its mirror there. -/
theorem AgreeOn.mirrorsCode {module : ModuleHandle} {left right : DebugView}
    (agree : AgreeOn module left right) (confined : right.Confined) :
    MirrorsCode right module left module where
  units := by
    have unmoved : ∀ owned ∈ right.units module, owned.moveTo module = owned :=
      fun owned member => OwnedUnit.moveTo_self (confined.unit_module member)
    rw [agree.units, List.map_congr_left unmoved, List.map_id']
  root inside := by
    rw [UnitHandle.moveTo_self inside, agree.root inside]
    have unmoved : ∀ root ∈ right.root _, root.moveTo module = root :=
      fun root found => EntryHandle.moveTo_self (by rw [confined.root_unit found, inside])
    rw [Option.map_congr unmoved, Option.map_id']
  children inside := by
    rw [EntryHandle.moveTo_self inside, agree.children inside]
    have unmoved : ∀ child ∈ right.children _, child.moveTo module = child :=
      fun child member => EntryHandle.moveTo_self ((right.child_module member).trans inside)
    rw [List.map_congr_left unmoved, List.map_id']
  tag inside := by rw [EntryHandle.moveTo_self inside, agree.tag inside]
  isDeclaration inside := by rw [EntryHandle.moveTo_self inside, agree.isDeclaration inside]
  ranges inside := by rw [EntryHandle.moveTo_self inside, agree.ranges inside]

namespace MirrorsCode

variable {left right : DebugView} {module other : ModuleHandle}

theorem codeRanges (mirrors : left.MirrorsCode module right other) (bias : UInt64)
    {entry : EntryHandle} (inside : entry.unit.module = module) :
    right.codeRanges bias (entry.moveTo other) = left.codeRanges bias entry := by
  simp only [DebugView.codeRanges, mirrors.tag inside, mirrors.ranges inside]

theorem openChildren (mirrors : left.MirrorsCode module right other) {entry : EntryHandle}
    (inside : entry.unit.module = module) :
    right.openChildren (entry.moveTo other) = (left.openChildren entry).map (·.moveTo other) := by
  rw [DebugView.openChildren, mirrors.children inside, List.filter_map, DebugView.openChildren]
  congr 1
  apply List.filter_congr
  intro child member
  simp only [Function.comp, mirrors.isDeclaration ((left.child_module member).trans inside)]

/-- The walk over one module takes the steps of the walk over the other one. -/
theorem gather (mirrors : left.MirrorsCode module right other) (bias : UInt64)
    {pending : List EntryHandle} (inside : ∀ entry ∈ pending, entry.unit.module = module) :
    right.gather bias (pending.map (·.moveTo other)) = left.gather bias pending := by
  fun_induction left.gather bias pending with
  | case1 => simp [DebugView.gather]
  | case2 entry pending induction =>
      have entryInside : entry.unit.module = module := inside entry (by simp)
      have below : ∀ child ∈ (left.openChildren entry).reverse ++ pending,
          child.unit.module = module := by
        intro child member
        rcases List.mem_append.mp member with here | later
        · have isChild : child ∈ left.children entry :=
            (List.mem_filter.mp (List.mem_reverse.mp here)).1
          exact (left.child_module isChild).trans entryInside
        · exact inside child (by simp [later])
      have collected : (right.children (entry.moveTo other)).flatMap (right.codeRanges bias) =
          (left.children entry).flatMap (left.codeRanges bias) := by
        rw [mirrors.children entryInside, List.flatMap_map]
        apply List.flatMap_congr
        intro child member
        exact mirrors.codeRanges bias ((left.child_module member).trans entryInside)
      have moved : (right.openChildren (entry.moveTo other)).reverse ++
          pending.map (·.moveTo other) =
            ((left.openChildren entry).reverse ++ pending).map (·.moveTo other) := by
        rw [mirrors.openChildren entryInside, List.map_append, List.map_reverse]
      rw [List.map_cons, DebugView.gather, collected, moved, induction below]

end MirrorsCode

end DebugView

/-- The ranges of a unit as those of the unit at the same place of another module. -/
def RangeSet.moveTo (set : RangeSet) (module : ModuleHandle) : RangeSet :=
  { set with unit := set.unit.moveTo module }

def ModuleIndex.moveTo (index : ModuleIndex) (module : ModuleHandle) : ModuleIndex :=
  { index with sets := index.sets.map (·.moveTo module) }

namespace DebugView.MirrorsCode

variable {left right : DebugView} {module other : ModuleHandle}

theorem rangeSet (mirrors : left.MirrorsCode module right other) (confined : left.Confined)
    {unit : UnitHandle} (inside : unit.module = module) (bias : UInt64) :
    RangeSet.build right (unit.moveTo other) bias =
      (RangeSet.build left unit bias).moveTo other := by
  unfold RangeSet.build
  rw [mirrors.root inside]
  cases found : left.root unit with
  | none => rfl
  | some root =>
      have rootInside : ∀ entry ∈ [root], entry.unit.module = module := by
        simp [confined.root_unit found, inside]
      have gathered := mirrors.gather bias rootInside
      simp only [List.map_cons, List.map_nil] at gathered
      simp only [Option.map_some, gathered, RangeSet.moveTo]

theorem moduleIndex (mirrors : left.MirrorsCode module right other) (confined : left.Confined) :
    ModuleIndex.build right other = (ModuleIndex.build left module).moveTo other := by
  have built : (right.units other).map (fun owned => RangeSet.build right owned.unit owned.bias) =
      ((left.units module).map fun owned => RangeSet.build left owned.unit owned.bias).map
        (·.moveTo other) := by
    rw [mirrors.units, List.map_map, List.map_map]
    apply List.map_congr_left
    intro owned member
    exact mirrors.rangeSet confined (confined.unit_module member) owned.bias
  have kept : ((right.units other).map (fun owned =>
        RangeSet.build right owned.unit owned.bias)).filter (!·.isEmpty) =
      (((left.units module).map fun owned => RangeSet.build left owned.unit owned.bias).filter
        (!·.isEmpty)).map (·.moveTo other) := by
    rw [built, List.filter_map]
    rfl
  simp only [ModuleIndex.build, ModuleIndex.ofUnits, kept, ModuleIndex.moveTo, List.map_map]
  rfl

end DebugView.MirrorsCode

namespace ModuleIndex

theorem findUnit_moveTo (index : ModuleIndex) (module : ModuleHandle) (address : UInt64) :
    (index.moveTo module).findUnit address = (index.findUnit address).map (·.moveTo module) := by
  unfold findUnit moveTo
  split
  · rw [List.find?_map, Option.map_map, Option.map_map]
    rfl
  · rfl

theorem moveTo_build_self {view : DebugView} (confined : view.Confined) (module : ModuleHandle) :
    (build view module).moveTo module = build view module := by
  have unmoved : ∀ set ∈ (build view module).sets, set.moveTo module = set := by
    intro set member
    obtain ⟨owned, inUnits, rfl⟩ := List.mem_map.mp (List.mem_filter.mp member).1
    have inside : owned.unit.module = module := confined.unit_module inUnits
    simp only [RangeSet.moveTo, RangeSet.build, UnitHandle.moveTo_self inside]
  rw [moveTo, List.map_congr_left unmoved, List.map_id']

theorem build_congr {module : ModuleHandle} {left right : DebugView}
    (agree : DebugView.AgreeOn module left right) (confined : right.Confined) :
    build left module = build right module := by
  rw [(agree.mirrorsCode confined).moduleIndex confined, moveTo_build_self confined]

end ModuleIndex

end Symbolization
