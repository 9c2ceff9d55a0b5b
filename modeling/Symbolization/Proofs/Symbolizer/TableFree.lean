import Mathlib
import Symbolization.Proofs.Session.SameImage

/-!
# Answers without an address table

The address table assigns on-disk addresses to units, while the index gathers runtime addresses from
their entries.  Where the table assigns an address only to the unit whose code lies there, and no
two units share an address, the index finds the same unit, so that the table could as well be empty.
-/

namespace Symbolization

/-- The image without assignments if it has the handle, and otherwise as it is. -/
def RegisteredImage.withoutTable (handle : ModuleHandle) (entry : RegisteredImage) :
    RegisteredImage :=
  { entry with
    image := entry.image.withTable (if entry.handle = handle then [] else entry.image.debug.table) }

namespace ImageSession

/-- The session as it were if the image under a handle had an empty address table. -/
def withoutTable (session : ImageSession) (handle : ModuleHandle) : ImageSession :=
  { session with modules := session.modules.map (·.withoutTable handle) }

variable {session : ImageSession} {handle : ModuleHandle} {image : Image}

theorem image?_withoutTable (session : ImageSession) (handle other : ModuleHandle) :
    (session.withoutTable handle).image? other =
      (session.image? other).map fun image =>
        image.withTable (if other = handle then [] else image.debug.table) := by
  rw [image?, withoutTable, List.find?_map, Option.map_map, image?, Option.map_map]
  apply Option.map_congr
  intro entry found
  have named : entry.handle = other := beq_iff_eq.mp (List.find?_some found :)
  simp only [Function.comp, RegisteredImage.withoutTable, named]

theorem moduleAt_withoutTable (session : ImageSession) (handle : ModuleHandle)
    (address : UInt64) :
    (session.withoutTable handle).moduleAt address = session.moduleAt address := by
  rw [moduleAt, withoutTable, lastUpTo?_map, Option.map_map, moduleAt]
  rfl

/-- The table of an image and the code of its units tell of the same units. -/
structure TableMatches (session : ImageSession) (handle : ModuleHandle) (image : Image) : Prop where
  registered : session.image? handle = some image
  /-- What the table assigns to a unit lies in a range that is gathered from the unit. -/
  gathered : ∀ assignment ∈ image.debug.table, ∀ address, assignment.range.contains address →
    session.view.holds (address + image.bias) ⟨⟨handle, assignment.unit⟩, image.bias⟩
  apart : ∀ first ∈ session.view.units handle, ∀ second ∈ session.view.units handle,
    first ≠ second → ∀ address,
      ¬ (session.view.holds address first ∧ session.view.holds address second)
  starts_set : ∀ owned ∈ session.view.units handle, ∀ range ∈ session.view.gathered owned,
    range.low ≠ 0

theorem mem_units_of_holds (registered : session.image? handle = some image) {index : Nat}
    {address : UInt64} (holds : session.view.holds address ⟨⟨handle, index⟩, image.bias⟩) :
    ⟨⟨handle, index⟩, image.bias⟩ ∈ session.view.units handle := by
  by_cases inside : index < image.debug.units.length
  · simp [view, units, registered, inside]
  · have noRoot : session.view.root ⟨handle, index⟩ = none := by
      simp [view, unit?, registered, inside]
    obtain ⟨range, gathered, _⟩ := List.any_eq_true.mp holds
    simp [DebugView.gathered, RangeSet.build, noRoot] at gathered

theorem TableMatches.holds (agrees : session.TableMatches handle image) {address : UInt64}
    {owned : OwnedUnit} (assigned : session.view.unitAt handle address = some owned) :
    session.view.holds address owned ∧ owned ∈ session.view.units handle := by
  simp only [view, unitAt, agrees.registered, Option.bind_eq_bind, Option.bind_some,
    Option.bind_eq_some_iff] at assigned
  obtain ⟨index, found, equality⟩ := assigned
  cases equality
  obtain ⟨assignment, searched, rfl⟩ := Option.map_eq_some_iff.mp found
  obtain ⟨member, contains⟩ := mem_of_lastUpTo? searched
  have runtime : image.onDisk address + image.bias = address := UInt64.sub_add_cancel address _
  have held := agrees.gathered assignment member _ contains
  rw [runtime] at held
  exact ⟨held, mem_units_of_holds agrees.registered held⟩

theorem TableMatches.scan? (agrees : session.TableMatches handle image) {address : UInt64}
    {owned : OwnedUnit} (member : owned ∈ session.view.units handle)
    (holds : session.view.holds address owned) :
    session.view.scan? handle address = some owned := by
  cases found : session.view.scan? handle address with
  | none => exact absurd holds (List.find?_eq_none.mp found owned member)
  | some other =>
      by_cases same : other = owned
      · rw [same]
      · have otherMember := List.mem_of_find?_eq_some found
        have otherHolds : session.view.holds address other := List.find?_some found
        exact absurd ⟨otherHolds, holds⟩ (agrees.apart other otherMember owned member same address)

/-- The index finds the unit that the table assigns an address to. -/
theorem TableMatches.findUnit (agrees : session.TableMatches handle image) {address : UInt64}
    {owned : OwnedUnit} (assigned : session.view.unitAt handle address = some owned) :
    (ModuleIndex.build session.view handle).findUnit address = some owned := by
  obtain ⟨holds, member⟩ := agrees.holds assigned
  have scanned := agrees.scan? member holds
  rw [(ModuleIndex.findUnit_eq_scan?_iff session.view handle address).mpr, scanned]
  intro first isFirst
  cases scanned.symm.trans isFirst
  obtain ⟨range, gathered, inside⟩ := List.any_eq_true.mp holds
  exact ModuleIndex.hides_eq_false member gathered
    (agrees.starts_set owned member range gathered) inside

theorem TableMatches.searchUnit (agrees : session.TableMatches handle image)
    (address : UInt64) :
    session.view.searchUnit handle address =
      (ModuleIndex.build session.view handle).findUnit address := by
  rw [DebugView.searchUnit]
  cases assigned : session.view.unitAt handle address with
  | none => exact Option.none_or
  | some owned => rw [agrees.findUnit assigned, Option.some_or]

theorem unitAt_withoutTable (session : ImageSession) (handle : ModuleHandle)
    (address : UInt64) : (session.withoutTable handle).view.unitAt handle address = none := by
  have nothing : ∀ image : Image, (image.withTable []).debug.unitForAddress?
      ((image.withTable []).onDisk address) = none := by
    simp [Image.withTable, Dwarf.DebugData.withTable, Dwarf.DebugData.unitForAddress?,
      Dwarf.AddressAssignment.find?, lastUpTo?]
  simp only [view, unitAt, image?_withoutTable, if_true, Option.bind_eq_bind]
  cases session.image? handle with
  | none => rfl
  | some image => simp only [Option.map_some, Option.bind_some, nothing, Option.bind_none]

/-- The table shows in no answer but the units that it assigns. -/
theorem mirrorsContents_withoutTable (session : ImageSession) (handle module : ModuleHandle) :
    session.view.MirrorsContents module (session.withoutTable handle).view module := by
  have there := session.image?_withoutTable handle module
  cases here : session.image? module with
  | none =>
      rw [here, Option.map_none] at there
      exact ((absent_of_image? here).mirrors (absent_of_image? there)).toMirrorsContents
  | some image =>
      rw [here, Option.map_some] at there
      exact mirrorsContents_of_withTable here there

theorem image?_withoutTable_of_ne {other : ModuleHandle} (different : other ≠ handle) :
    (session.withoutTable handle).image? other = session.image? other := by
  simp only [image?_withoutTable, if_neg different]
  exact Option.map_id'

theorem TableMatches.corresponds (agrees : session.TableMatches handle image) (address : UInt64)
    (module : ModuleHandle) :
    session.view.Corresponds (session.withoutTable handle).view address module module := by
  have confined := view_confined session
  by_cases same : module = handle
  · subst same
    have contents := session.mirrorsContents_withoutTable module module
    refine ⟨contents, ?_⟩
    rw [agrees.searchUnit, DebugView.searchUnit, unitAt_withoutTable, Option.none_or,
      contents.moduleIndex confined, ModuleIndex.findUnit_moveTo]
  · exact (mirrors_of_image? (image?_withoutTable_of_ne same)).corresponds confined address

theorem TableMatches.lookup_withoutTable (agrees : session.TableMatches handle image)
    (address : UInt64) :
    (session.withoutTable handle).view.lookup address = session.view.lookup address := by
  apply DebugView.lookup_eq_of_corresponds (view_confined session)
  have sameModule : (session.withoutTable handle).view.moduleAt address =
      session.view.moduleAt address :=
    session.moduleAt_withoutTable handle address
  rw [sameModule]
  cases session.view.moduleAt address with
  | none => exact .none
  | some module => exact .some (agrees.corresponds address module)

theorem faithful_withoutTable {indexes : IndexCache} (faithful : indexes.Faithful session.view)
    (handle : ModuleHandle) : indexes.Faithful (session.withoutTable handle).view where
  index_eq entry member := by
    have confined := view_confined session
    rw [(session.mirrorsContents_withoutTable handle entry.1).moduleIndex confined,
      ModuleIndex.moveTo_build_self confined]
    exact faithful.index_eq entry member
  known entry member := by
    rw [(session.mirrorsContents_withoutTable handle entry.1).moduleInfo]
    exact faithful.known entry member

end ImageSession

namespace Symbolizer

/-- The symbolizer as it were if the image under a handle had an empty address table. -/
def withoutTable (symbolizer : Symbolizer ImageSession) (handle : ModuleHandle) :
    Symbolizer ImageSession :=
  { symbolizer with session := symbolizer.session.withoutTable handle }

/-- In every state of a symbolizer, an image of which the table matches the code is resolved as it
would be with an empty table. -/
theorem resolve_withoutTable {session : ImageSession} (reachable : session.Reachable)
    (operations : List (Operation ImageSession)) {handle : ModuleHandle} {image : Image}
    (agrees : ((new session).run operations).session.TableMatches handle image)
    (address : UInt64) :
    (((new session).run operations).resolve address).1 =
      ((((new session).run operations).withoutTable handle).resolve address).1 := by
  have sound : ((new session).run operations).Sound := (sound_new reachable).run operations
  have faithful : (((new session).run operations).withoutTable handle).Faithful :=
    ImageSession.faithful_withoutTable sound.faithful handle
  have lookup : (((new session).run operations).withoutTable handle).view.lookup address =
      ((new session).run operations).view.lookup address :=
    agrees.lookup_withoutTable address
  rw [resolve_eq_lookup sound.faithful, resolve_eq_lookup faithful, lookup]
  rfl

end Symbolizer

/-! An image with two units, of which the first has an inlined call in its routine.  The table
assigns all of the first routine and the first half of the second one. -/

def Dwarf.Sections.empty : Sections :=
  ⟨.little, .empty, .empty, .empty, .empty, .empty, .empty, .empty, .empty, .empty, .empty⟩

/-- A unit of routines and inlined calls, each with its lowest address and its length in two bytes
and one byte, and nothing else. -/
def Dwarf.CompilationUnit.ofCode (bytes : ByteArray) : CompilationUnit where
  context := ⟨.empty, ⟨.four, 4, 2⟩, ⟨0, 0, 0⟩⟩
  entries := {
    header := ⟨0, ⟨.four, 4, 2⟩, 0, .start bytes .little, Nat.zero_le _⟩
    abbreviations := [⟨1, ⟨0x11⟩, true, []⟩,
      ⟨2, .subprogram, true, [⟨.lowAddress, 1, none⟩, ⟨.highAddress, 5, none⟩]⟩,
      ⟨3, .inlinedSubroutine, false, [⟨.lowAddress, 1, none⟩, ⟨.highAddress, 5, none⟩]⟩] }
  name := none
  directory := none
  lowAddress := 0
  lines := none

def tabledImage : Image where
  name := "libfoo.so"
  bias := 0x400000
  start := 0x400000
  length := 0x1000
  symbols := ⟨[]⟩
  debug := {
    units := [.ofCode ⟨#[1, 2, 0, 2, 0, 1, 3, 0x10, 2, 0x30, 0, 0, 0]⟩,
      .ofCode ⟨#[1, 2, 0, 4, 0x80, 0, 0, 0]⟩]
    table := [⟨⟨0x200, 0x300⟩, 0⟩, ⟨⟨0x400, 0x440⟩, 1⟩] }

namespace ImageSession

def withTabledImage : ImageSession :=
  run (.new fun _ => .error .notFound) [.reportBegin, .reportImage tabledImage, .reportEnd]

theorem units_withTabledImage :
    withTabledImage.view.units ⟨1⟩ = [⟨⟨⟨1⟩, 0⟩, 0x400000⟩, ⟨⟨⟨1⟩, 1⟩, 0x400000⟩] := by
  cbv

theorem gathered_withTabledImage :
    withTabledImage.view.gathered ⟨⟨⟨1⟩, 0⟩, 0x400000⟩ =
        [⟨0x400200, 0x400300⟩, ⟨0x400210, 0x400240⟩] ∧
      withTabledImage.view.gathered ⟨⟨⟨1⟩, 1⟩, 0x400000⟩ = [⟨0x400400, 0x400480⟩] := by
  have root : withTabledImage.view.root ⟨⟨1⟩, 0⟩ = some ⟨⟨⟨1⟩, 0⟩, 0⟩ := by cbv
  constructor
  · simp only [DebugView.gathered, RangeSet.build, root]
    cbv
  · cbv

/-- The code of the inlined call lies in that of its routine. -/
theorem holds_withTabledImage (address : UInt64) :
    (withTabledImage.view.holds address ⟨⟨⟨1⟩, 0⟩, 0x400000⟩ ↔
        0x400200 ≤ address.toNat ∧ address.toNat < 0x400300) ∧
      (withTabledImage.view.holds address ⟨⟨⟨1⟩, 1⟩, 0x400000⟩ ↔
        0x400400 ≤ address.toNat ∧ address.toNat < 0x400480) := by
  obtain ⟨first, second⟩ := gathered_withTabledImage
  simp only [DebugView.holds, first, second, List.any_cons, List.any_nil, Bool.or_eq_true,
    Bool.false_eq_true, or_false, AddressInterval.contains_iff, UInt64.le_iff_toNat_le,
    UInt64.lt_iff_toNat_lt, UInt64.reduceToNat, and_true]
  omega

theorem tableMatches_withTabledImage : withTabledImage.TableMatches ⟨1⟩ tabledImage := by
  have holds := holds_withTabledImage
  refine ⟨by cbv, ?_, ?_, ?_⟩
  · intro assignment member address contains
    have bias : (address + tabledImage.bias).toNat = (address.toNat + 0x400000) % 2 ^ 64 :=
      UInt64.toNat_add address 0x400000
    simp only [tabledImage, List.mem_cons, List.not_mem_nil, or_false] at member
    rcases member with rfl | rfl
    · apply (holds _).1.mpr
      simp only [AddressInterval.contains_iff, UInt64.le_iff_toNat_le, UInt64.lt_iff_toNat_lt,
        UInt64.reduceToNat] at contains
      omega
    · apply (holds _).2.mpr
      simp only [AddressInterval.contains_iff, UInt64.le_iff_toNat_le, UInt64.lt_iff_toNat_lt,
        UInt64.reduceToNat] at contains
      omega
  · rw [units_withTabledImage]
    intro first member second otherMember different address both
    simp only [List.mem_cons, List.not_mem_nil, or_false] at member otherMember
    rcases member with rfl | rfl <;> rcases otherMember with rfl | rfl
    · exact absurd rfl different
    · have inFirst := (holds address).1.mp both.1
      have inSecond := (holds address).2.mp both.2
      omega
    · have inFirst := (holds address).1.mp both.2
      have inSecond := (holds address).2.mp both.1
      omega
    · exact absurd rfl different
  · obtain ⟨first, second⟩ := gathered_withTabledImage
    rw [units_withTabledImage]
    simp [first, second]

end ImageSession

namespace Symbolizer

def keepTabledImage : List (Operation ImageSession) :=
  [.beginReport, .report "libfoo.so" 0x400000, .endReport]

theorem resolve_withTabledImage :
    let symbolizer := (new ImageSession.withTabledImage).run keepTabledImage
    (∀ address, (symbolizer.resolve address).1 =
        ((symbolizer.withoutTable ⟨1⟩).resolve address).1) ∧
      symbolizer.view.unitAt ⟨1⟩ 0x400220 = some ⟨⟨⟨1⟩, 0⟩, 0x400000⟩ ∧
      (symbolizer.withoutTable ⟨1⟩).view.unitAt ⟨1⟩ 0x400220 = none ∧
      (symbolizer.resolve 0x400220).1.frames.map (·.isInlined) = [true, false] := by
  have reachable : ImageSession.withTabledImage.Reachable := (ImageSession.Reachable.new _).run _
  have kept : ((new ImageSession.withTabledImage).run keepTabledImage).session =
      ImageSession.withTabledImage := by
    cbv
  have agrees : ((new ImageSession.withTabledImage).run keepTabledImage).session.TableMatches ⟨1⟩
      tabledImage := by
    rw [kept]
    exact ImageSession.tableMatches_withTabledImage
  exact ⟨resolve_withoutTable reachable keepTabledImage agrees, by cbv, by cbv, by cbv⟩

end Symbolizer

end Symbolization
