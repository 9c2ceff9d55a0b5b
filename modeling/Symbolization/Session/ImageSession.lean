import Symbolization.Dwarf.Names
import Symbolization.Dwarf.Scopes
import Symbolization.Dwarf.SourceFile
import Symbolization.Image
import Symbolization.Session.Session

/-!
# Sessions over images

A session over images that are read from files.  A batch names images by path and load address.
An image that is registered already is kept under its handle and not read again; any other is read
when it is reported and gets a handle that was never in use.
-/

namespace Symbolization

/-- An image under the handle by which it is known. -/
structure RegisteredImage where
  handle : ModuleHandle
  image : Image

namespace RegisteredImage

/-- Whether the image was read from the path and placed at the load address. -/
def isOf (entry : RegisteredImage) (path : FilePath) (loadAddress : UInt64) : Bool :=
  entry.image.name == path.told && entry.image.bias == loadAddress

end RegisteredImage

/-- What a batch holds for a report. -/
inductive Reported where
  /-- The image that is registered under the handle stays. -/
  | kept (handle : ModuleHandle)
  | loaded (entry : RegisteredImage)

namespace Reported

def handle : Reported → ModuleHandle
  | .kept handle => handle
  | .loaded entry => entry.handle

end Reported

structure ImageSession where
  files : FileSource
  /-- In the order of their starts. -/
  modules : List RegisteredImage
  batch : Option (List Reported)
  /-- The number of the last handle that was given out. -/
  lastHandle : Nat

namespace ImageSession

/-- A session to which nothing was reported. -/
def new (files : FileSource) : ImageSession := ⟨files, [], none, 0⟩

def image? (session : ImageSession) (handle : ModuleHandle) : Option Image :=
  (session.modules.find? (·.handle == handle)).map (·.image)

/-! Reports. -/

def reportBegin (session : ImageSession) : ImageSession := { session with batch := some [] }

def reportImage (session : ImageSession) (image : Image) :
    Except SymbolizeError ModuleHandle × ImageSession :=
  match session.batch with
  | none => (.error .notReporting, session)
  | some batch =>
    let handle : ModuleHandle := ⟨session.lastHandle + 1⟩
    (.ok handle, { session with
      batch := some (batch ++ [.loaded ⟨handle, image⟩])
      lastHandle := session.lastHandle + 1 })

/-- Whether a report of the batch was for the image. -/
def covers (session : ImageSession) (path : FilePath) (loadAddress : UInt64) : Reported → Bool
  | .kept handle =>
    session.modules.any fun entry => entry.handle == handle && entry.isOf path loadAddress
  | .loaded entry => entry.isOf path loadAddress

def pending? (session : ImageSession) (batch : List Reported) (path : FilePath)
    (loadAddress : UInt64) : Option ModuleHandle :=
  (batch.find? (session.covers path loadAddress)).map Reported.handle

def registered? (session : ImageSession) (path : FilePath) (loadAddress : UInt64) :
    Option ModuleHandle :=
  (session.modules.find? (·.isOf path loadAddress)).map (·.handle)

/-- Adds the image at a path to the open batch, unless the batch has it already. -/
def reportModule (session : ImageSession) (path : FilePath) (loadAddress : UInt64) :
    Except SymbolizeError ModuleHandle × ImageSession :=
  match session.batch with
  | none => (.error .notReporting, session)
  | some batch =>
    match session.pending? batch path loadAddress with
    | some handle => (.ok handle, session)
    | none =>
      match session.registered? path loadAddress with
      | some handle => (.ok handle, { session with batch := some (batch ++ [.kept handle]) })
      | none =>
        match Image.load session.files path loadAddress with
        | .error error => (.error error, session)
        | .ok image => session.reportImage image

/-- The first two neighbours of which the second starts before the end of the first. -/
def overlap? : List RegisteredImage → Option (RegisteredImage × RegisteredImage)
  | first :: second :: rest =>
    if second.image.start < first.image.endAddress then some (first, second)
    else overlap? (second :: rest)
  | _ => none

/-- The images without the one at an index.  The last one moves into its place. -/
def takeOut (entries : List RegisteredImage) (index : Nat) : List RegisteredImage :=
  match entries.getLast? with
  | none => []
  | some last => (entries.set index last).dropLast

/-- The images of a batch in its order.  Those that it keeps are taken out of the images that were
registered before, one after the other. -/
def moveOver (previous : List RegisteredImage) : (batch : List Reported) → List RegisteredImage
  | [] => []
  | .loaded entry :: batch => entry :: moveOver previous batch
  | .kept handle :: batch =>
    match previous.find? (·.handle == handle) with
    | none => moveOver previous batch
    | some entry =>
      entry :: moveOver (takeOut previous (previous.findIdx (·.handle == handle))) batch

def commit (session : ImageSession) (batch : List Reported) : List RegisteredImage :=
  (moveOver session.modules batch).mergeSort fun left right =>
    left.image.start ≤ right.image.start

/-- Registers the images of the batch and drops all others.  Images that overlap are registered
nonetheless. -/
def reportEnd (session : ImageSession) : Except SymbolizeError Unit × ImageSession :=
  match session.batch with
  | none => (.error .notReporting, session)
  | some batch =>
    let modules := session.commit batch
    let outcome :=
      match overlap? modules with
      | none => .ok ()
      | some (first, second) => .error (.overlappingModules first.image.name second.image.name)
    (outcome, { session with modules, batch := none })

/-! Questions. -/

/-- The last image, in the order of their starts, that holds a runtime address. -/
def moduleAt (session : ImageSession) (address : UInt64) : Option ModuleHandle :=
  (lastUpTo? (·.image.start) address (·.image.has address) session.modules).map (·.handle)

def unit? (session : ImageSession) (handle : UnitHandle) :
    Option (Image × Dwarf.CompilationUnit) := do
  let image ← session.image? handle.module
  let unit ← image.debug.units[handle.index]?
  some (image, unit)

/-- An entry that a handle names, with its image and its unit. -/
structure FoundEntry where
  image : Image
  unit : Dwarf.CompilationUnit
  entry : Dwarf.Entry

def entryAt? (session : ImageSession) (handle : EntryHandle) : Option FoundEntry := do
  let (image, unit) ← session.unit? handle.unit
  let entry ← unit.entries.get? handle.offset
  some ⟨image, unit, entry⟩

def nearestSymbol (session : ImageSession) (handle : ModuleHandle) (address : UInt64) :
    Option NearestSymbol := do
  let image ← session.image? handle
  let symbol ← image.nearest? address
  some ⟨symbol.name, image.onDisk address - symbol.address⟩

/-- The unit to which the table of the image assigns a runtime address. -/
def unitAt (session : ImageSession) (handle : ModuleHandle) (address : UInt64) :
    Option OwnedUnit := do
  let image ← session.image? handle
  let index ← image.debug.unitForAddress? (image.onDisk address)
  some ⟨⟨handle, index⟩, image.bias⟩

def units (session : ImageSession) (handle : ModuleHandle) : List OwnedUnit :=
  match session.image? handle with
  | none => []
  | some image =>
    (List.range image.debug.units.length).map fun index => ⟨⟨handle, index⟩, image.bias⟩

def children (session : ImageSession) (parent : EntryHandle) : List EntryHandle :=
  match session.unit? parent.unit with
  | none => []
  | some (_, unit) =>
    (unit.entries.children parent.offset).map fun offset => ⟨parent.unit, offset⟩

/-- Above every offset of a unit. -/
def limit (session : ImageSession) (handle : UnitHandle) : Nat :=
  match session.unit? handle with
  | none => 0
  | some (_, unit) => unit.entries.header.limit

theorem mem_children (session : ImageSession) {parent child : EntryHandle}
    (member : child ∈ session.children parent) :
    child.unit = parent.unit ∧ parent.offset < child.offset ∧
      child.offset < session.limit parent.unit := by
  unfold children at member
  unfold limit
  cases found : session.unit? parent.unit with
  | none => simp [found] at member
  | some pair =>
      simp only [found, List.mem_map] at member
      obtain ⟨offset, inside, rfl⟩ := member
      have bounds := Dwarf.Entries.bounds_of_mem_children inside
      exact ⟨rfl, bounds.1, bounds.2⟩

def view (session : ImageSession) : DebugView where
  moduleAt := session.moduleAt
  moduleInfo handle := (session.image? handle).map fun image => ⟨image.name, image.start⟩
  nearestSymbol := session.nearestSymbol
  unitAt := session.unitAt
  units := session.units
  root handle := do
    let (_, unit) ← session.unit? handle
    let root ← unit.entries.root?
    some ⟨handle, root.offset⟩
  children := session.children
  tag handle := (session.entryAt? handle).map (·.entry.tag)
  isDeclaration handle := (session.entryAt? handle).any (·.entry.isDeclaration)
  ranges handle := ((session.entryAt? handle).map fun found => found.unit.ranges found.entry).getD []
  linkageName handle := do
    let found ← session.entryAt? handle
    found.image.debug.name? found.unit found.entry
  callSite handle :=
    ((session.entryAt? handle).map fun found => found.unit.callSite found.entry).getD .unknown
  sourcePosition handle address := do
    let (_, unit) ← session.unit? handle
    unit.position? address
  scopes handle address :=
    match session.unit? handle with
    | none => []
    | some (_, unit) => (unit.scopes address).map fun offset => ⟨handle, offset⟩
  limit := session.limit
  child_unit member := (session.mem_children member).1
  child_after member := (session.mem_children member).2.1
  child_below member := (session.mem_children member).2.2

instance : DebugSession ImageSession where
  reportBegin := reportBegin
  reportModule := reportModule
  reportEnd := reportEnd
  view := view
  noteEnumeration session _ := session

end ImageSession

end Symbolization
