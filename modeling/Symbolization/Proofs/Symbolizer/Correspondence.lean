import Symbolization.Proofs.Index.Exactness
import Symbolization.Proofs.Index.Transparency

/-!
# Answers that do not tell handles apart

A resolved location has no handles in it.  So a view that knows under another handle what is at an
address resolves the address alike, whichever way the unit of the address was found.
-/

namespace Symbolization

namespace DebugView

/-- Of a module and its mirror all is answered alike, whatever their address tables are. -/
structure MirrorsContents (left : DebugView) (module : ModuleHandle) (right : DebugView)
    (other : ModuleHandle) : Prop extends MirrorsCode left module right other where
  moduleInfo : right.moduleInfo other = left.moduleInfo module
  nearestSymbol : ∀ address, right.nearestSymbol other address = left.nearestSymbol module address
  linkageName : ∀ {entry : EntryHandle}, entry.unit.module = module →
    right.linkageName (entry.moveTo other) = left.linkageName entry
  callSite : ∀ {entry : EntryHandle}, entry.unit.module = module →
    right.callSite (entry.moveTo other) = left.callSite entry
  sourcePosition : ∀ {unit : UnitHandle}, unit.module = module → ∀ address,
    right.sourcePosition (unit.moveTo other) address = left.sourcePosition unit address
  scopes : ∀ {unit : UnitHandle}, unit.module = module → ∀ address,
    right.scopes (unit.moveTo other) address = (left.scopes unit address).map (·.moveTo other)

/-- Of a module and its mirror all is answered alike. -/
structure Mirrors (left : DebugView) (module : ModuleHandle) (right : DebugView)
    (other : ModuleHandle) : Prop extends MirrorsContents left module right other where
  unitAt : ∀ address, right.unitAt other address = (left.unitAt module address).map (·.moveTo other)

variable {left right : DebugView} {module other : ModuleHandle}

namespace MirrorsContents

theorem inlinedCalls (mirrors : left.MirrorsContents module right other)
    (confined : left.Confined) {unit : UnitHandle} (inside : unit.module = module)
    (offset : UInt64) :
    right.inlinedCalls (unit.moveTo other) offset = left.inlinedCalls unit offset := by
  have scopeInside : ∀ scope ∈ left.scopes unit offset, scope.unit.module = module := by
    intro scope member
    rw [confined.scope_unit member, inside]
  have kept : (left.scopes unit offset).filter
      ((fun scope => right.tag scope == some .inlinedSubroutine) ∘ (·.moveTo other)) =
        (left.scopes unit offset).filter fun scope => left.tag scope == some .inlinedSubroutine := by
    apply List.filter_congr
    intro scope member
    simp only [Function.comp, mirrors.tag (scopeInside scope member)]
  rw [DebugView.inlinedCalls, mirrors.scopes inside, List.filter_map, kept, List.map_map,
    DebugView.inlinedCalls]
  apply List.map_congr_left
  intro scope member
  have scopeIn := scopeInside scope (List.mem_filter.mp member).1
  simp only [Function.comp, inlinedCall, mirrors.linkageName scopeIn, mirrors.callSite scopeIn]

theorem inlineFrames (mirrors : left.MirrorsContents module right other)
    (confined : left.Confined) {unit : UnitHandle} (inside : unit.module = module)
    (offset : UInt64) (outer : Frame) :
    right.inlineFrames (unit.moveTo other) offset outer = left.inlineFrames unit offset outer := by
  simp only [DebugView.inlineFrames, mirrors.scopes inside, List.isEmpty_map,
    mirrors.inlinedCalls confined inside]

theorem frames (mirrors : left.MirrorsContents module right other) (confined : left.Confined)
    (name : String) {unit : Option OwnedUnit} (inside : ∀ owned ∈ unit, owned.unit.module = module)
    (address : UInt64) :
    right.frames name (unit.map (·.moveTo other)) address = left.frames name unit address := by
  cases unit with
  | none => rfl
  | some owned =>
      have ownedInside : owned.unit.module = module := inside owned rfl
      simp only [DebugView.frames, Option.map_some, OwnedUnit.moveTo,
        mirrors.sourcePosition ownedInside, mirrors.inlineFrames confined ownedInside]

/-- The location of an address in a module is the one in its mirror. -/
theorem location (mirrors : left.MirrorsContents module right other) (confined : left.Confined)
    (info : ModuleInfo) {unit : Option OwnedUnit}
    (inside : ∀ owned ∈ unit, owned.unit.module = module) (address : UInt64) :
    right.location other info (unit.map (·.moveTo other)) address =
      left.location module info unit address := by
  simp only [DebugView.location, mirrors.nearestSymbol, mirrors.frames confined _ inside]

end MirrorsContents

theorem Confined.searchUnit_module {view : DebugView} (confined : view.Confined)
    {address : UInt64} {owned : OwnedUnit} (found : view.searchUnit module address = some owned) :
    owned.unit.module = module := by
  rcases Option.or_eq_some_iff.mp found with byTable | ⟨-, byIndex⟩
  · exact confined.unitAt_module byTable
  · rw [ModuleIndex.findUnit_eq_find?] at byIndex
    exact confined.unit_module (List.mem_of_find?_eq_some byIndex)

theorem Mirrors.searchUnit (mirrors : left.Mirrors module right other) (confined : left.Confined)
    (address : UInt64) :
    right.searchUnit other address = (left.searchUnit module address).map (·.moveTo other) := by
  rw [DebugView.searchUnit, mirrors.unitAt, mirrors.moduleIndex confined,
    ModuleIndex.findUnit_moveTo, DebugView.searchUnit]
  cases left.unitAt module address <;> rfl

/-- What stands at an address in one view mirrors what stands there in the other one, and the
address is in the same unit of both. -/
structure Corresponds (left right : DebugView) (address : UInt64) (module other : ModuleHandle) :
    Prop where
  contents : left.MirrorsContents module right other
  unit : right.searchUnit other address = (left.searchUnit module address).map (·.moveTo other)

theorem Mirrors.corresponds (mirrors : left.Mirrors module right other) (confined : left.Confined)
    (address : UInt64) : left.Corresponds right address module other :=
  ⟨mirrors.toMirrorsContents, mirrors.searchUnit confined address⟩

/-- Views that have the same module at an address, be it under different handles, or have none
there, resolve the address alike. -/
theorem lookup_eq_of_corresponds (confined : left.Confined) {address : UInt64}
    (alike : Option.Rel (left.Corresponds right address) (left.moduleAt address)
      (right.moduleAt address)) :
    right.lookup address = left.lookup address := by
  unfold lookup
  generalize left.moduleAt address = here, right.moduleAt address = there at alike
  cases alike with
  | none => rfl
  | @some module other corresponds =>
      have inside : ∀ owned ∈ left.searchUnit module address, owned.unit.module = module :=
        fun owned found => confined.searchUnit_module found
      simp only [corresponds.contents.moduleInfo, corresponds.unit,
        corresponds.contents.location confined _ inside]

end DebugView

end Symbolization
