import Symbolization.Proofs.Order.Search
import Symbolization.Proofs.Session.HandleIdentity
import Symbolization.Proofs.Symbolizer.Correspondence

/-!
# Sessions with the same image

What a session answers about a handle is a matter of the image under the handle.  Where two sessions
have the same image under some handles, the one handle mirrors the other.  The address table of an
image shows in one kind of answer only, the unit that the table itself assigns an address to.
-/

namespace Symbolization

namespace Dwarf.DebugData

def withTable (data : DebugData) (table : List AddressAssignment) : DebugData :=
  { data with table }

theorem inheritedText?_withTable (data : DebugData) (table : List AddressAssignment)
    (name : AttributeName) (hops : Nat) (unit : CompilationUnit) (entry : Entry) :
    (data.withTable table).inheritedText? name hops unit entry =
      data.inheritedText? name hops unit entry := by
  induction hops generalizing unit entry with
  | zero => rfl
  | succ hops induction =>
      simp only [inheritedText?, induction]
      rfl

theorem name?_withTable (data : DebugData) (table : List AddressAssignment)
    (unit : CompilationUnit) (entry : Entry) :
    (data.withTable table).name? unit entry = data.name? unit entry := by
  simp only [name?, inheritedText?_withTable]

end Dwarf.DebugData

def Image.withTable (image : Image) (table : List Dwarf.AddressAssignment) : Image :=
  { image with debug := image.debug.withTable table }

namespace DebugView

/-- A module that is not known mirrors any other that is not known. -/
theorem Absent.mirrors {left right : DebugView} {module other : ModuleHandle}
    (absent : left.Absent module) (otherAbsent : right.Absent other) :
    left.Mirrors module right other where
  units := by rw [absent.units, otherAbsent.units, List.map_nil]
  root inside := by rw [absent.root _ inside, otherAbsent.root _ rfl, Option.map_none]
  children inside := by rw [absent.children _ inside, otherAbsent.children _ rfl, List.map_nil]
  tag inside := by rw [absent.tag _ inside, otherAbsent.tag _ rfl]
  isDeclaration inside := by rw [absent.isDeclaration _ inside, otherAbsent.isDeclaration _ rfl]
  ranges inside := by rw [absent.ranges _ inside, otherAbsent.ranges _ rfl]
  moduleInfo := by rw [absent.moduleInfo, otherAbsent.moduleInfo]
  nearestSymbol address := by rw [absent.nearestSymbol, otherAbsent.nearestSymbol]
  linkageName inside := by rw [absent.linkageName _ inside, otherAbsent.linkageName _ rfl]
  callSite inside := by rw [absent.callSite _ inside, otherAbsent.callSite _ rfl]
  sourcePosition inside address := by
    rw [absent.sourcePosition _ inside, otherAbsent.sourcePosition _ rfl]
  scopes inside address := by
    rw [absent.scopes _ inside, otherAbsent.scopes _ rfl, List.map_nil]
  unitAt address := by rw [absent.unitAt, otherAbsent.unitAt, Option.map_none]

end DebugView

namespace ImageSession

section

variable {left right : ImageSession} {module other : ModuleHandle} {image : Image}
  {table : List Dwarf.AddressAssignment}

theorem unit?_of_withTable (here : left.image? module = some image)
    (there : right.image? other = some (image.withTable table)) {unit : UnitHandle}
    (inside : unit.module = module) :
    right.unit? (unit.moveTo other) =
      (left.unit? unit).map fun found => (found.1.withTable table, found.2) := by
  subst inside
  simp only [unit?, UnitHandle.moveTo, here, there, Option.bind_eq_bind, Option.bind_some]
  cases found : image.debug.units[unit.index]? <;>
    simp [Image.withTable, Dwarf.DebugData.withTable, found]

theorem entryAt?_of_withTable (here : left.image? module = some image)
    (there : right.image? other = some (image.withTable table)) {entry : EntryHandle}
    (inside : entry.unit.module = module) :
    right.entryAt? (entry.moveTo other) =
      (left.entryAt? entry).map fun found => { found with image := found.image.withTable table } := by
  simp only [entryAt?, EntryHandle.moveTo, unit?_of_withTable here there inside,
    Option.bind_eq_bind]
  cases left.unit? entry.unit with
  | none => rfl
  | some found => cases read : found.2.entries.get? entry.offset <;> simp [read]

/-- An image with another table is the mirror of the image but for the table. -/
theorem mirrorsContents_of_withTable (here : left.image? module = some image)
    (there : right.image? other = some (image.withTable table)) :
    left.view.MirrorsContents module right.view other where
  units := by
    simp [view, units, here, there, Image.withTable, Dwarf.DebugData.withTable, OwnedUnit.moveTo,
      UnitHandle.moveTo]
  root {unit} inside := by
    simp only [view, unit?_of_withTable here there inside]
    cases left.unit? unit with
    | none => rfl
    | some found => cases read : found.2.entries.root? <;> simp [read, EntryHandle.moveTo]
  children {entry} inside := by
    have unit : right.unit? (entry.unit.moveTo other) =
        (left.unit? entry.unit).map fun found => (found.1.withTable table, found.2) :=
      unit?_of_withTable here there inside
    simp only [view, children, EntryHandle.moveTo, unit]
    cases left.unit? entry.unit <;> simp
  tag {entry} inside := by
    simp only [view, entryAt?_of_withTable here there inside]
    cases left.entryAt? entry <;> rfl
  isDeclaration {entry} inside := by
    simp only [view, entryAt?_of_withTable here there inside]
    cases left.entryAt? entry <;> rfl
  ranges {entry} inside := by
    simp only [view, entryAt?_of_withTable here there inside]
    cases left.entryAt? entry <;> rfl
  moduleInfo := by simp [view, here, there, Image.withTable]
  nearestSymbol address := by
    simp only [view, nearestSymbol, here, there, Option.bind_eq_bind, Option.bind_some]
    rfl
  linkageName {entry} inside := by
    simp only [view, entryAt?_of_withTable here there inside]
    cases left.entryAt? entry with
    | none => rfl
    | some found => exact Dwarf.DebugData.name?_withTable found.image.debug table _ _
  callSite {entry} inside := by
    simp only [view, entryAt?_of_withTable here there inside]
    cases left.entryAt? entry <;> rfl
  sourcePosition {unit} inside address := by
    simp only [view, unit?_of_withTable here there inside]
    cases left.unit? unit <;> rfl
  scopes {unit} inside address := by
    simp only [view, unit?_of_withTable here there inside]
    cases left.unit? unit <;> simp [EntryHandle.moveTo]

end

/-- Sessions with the same image under some handles answer alike about these. -/
theorem mirrors_of_image? {left right : ImageSession} {module other : ModuleHandle}
    (same : right.image? other = left.image? module) :
    left.view.Mirrors module right.view other := by
  cases here : left.image? module with
  | none => exact (absent_of_image? here).mirrors (absent_of_image? (same.trans here))
  | some image =>
      have there : right.image? other = some (image.withTable image.debug.table) :=
        same.trans here
      refine ⟨mirrorsContents_of_withTable here there, ?_⟩
      intro address
      have found : right.image? other = some image := there
      simp only [view, unitAt, here, found, Option.bind_eq_bind, Option.bind_some]
      cases image.debug.unitForAddress? (image.onDisk address) <;>
        simp [OwnedUnit.moveTo, UnitHandle.moveTo]

/-- Sessions that have the same images in the same order resolve every address alike. -/
theorem lookup_congr {left right : ImageSession} (leftOrderly : left.Orderly)
    (rightOrderly : right.Orderly)
    (same : left.modules.map (·.image) = right.modules.map (·.image)) (address : UInt64) :
    right.view.lookup address = left.view.lookup address := by
  have registered : ∀ {session : ImageSession}, session.Orderly → ∀ {entry : RegisteredImage},
      lastUpTo? (·.image.start) address (·.image.has address) session.modules = some entry →
        session.image? entry.handle = some entry.image := by
    intro session orderly entry found
    exact (image?_eq_some_iff orderly).mpr (mem_of_lastUpTo? found).1
  have alike : (lastUpTo? (·.image.start) address (·.image.has address) left.modules).map
      (·.image) =
        (lastUpTo? (·.image.start) address (·.image.has address) right.modules).map (·.image) := by
    have searched := congrArg (lastUpTo? Image.start address (·.has address)) same
    rwa [lastUpTo?_map, lastUpTo?_map] at searched
  apply DebugView.lookup_eq_of_corresponds (view_confined left)
  simp only [view, moduleAt]
  cases here : lastUpTo? (·.image.start) address (·.image.has address) left.modules with
  | none =>
      rw [here] at alike
      rw [Option.map_eq_none_iff.mp alike.symm]
      exact .none
  | some entry =>
      rw [here] at alike
      obtain ⟨other, there, image⟩ := Option.map_eq_some_iff.mp alike.symm
      rw [there]
      refine .some ((mirrors_of_image? ?_).corresponds (view_confined left) address)
      rw [registered rightOrderly there, registered leftOrderly here, image]

end ImageSession

end Symbolization
