import Symbolization.Session.Session
import Symbolization.Text.Path

/-!
# Sessions over modules given as values

An in-memory session answers from modules whose symbols, entries and line rows are handed over as
lists.  All modules are visible until a batch is completed, and then those that it reported.
-/

namespace Symbolization

structure MemoryEntry where
  parent : Nat
  tag : Tag
  name : Option String
  ranges : List AddressInterval
  isDeclaration : Bool
  callSite : SourcePosition
  deriving DecidableEq, Repr

structure MemoryRow where
  address : UInt64
  position : SourcePosition
  deriving DecidableEq, Repr

/-- A unit whose root is the entry at offset zero.  The other entries follow it, each behind its
parent. -/
structure MemoryUnit where
  bias : UInt64
  entries : Array MemoryEntry
  rows : List MemoryRow
  parent_le : ∀ {index : Nat} (inside : index < entries.size), entries[index].parent ≤ index

namespace MemoryUnit

def new (bias : UInt64) : MemoryUnit := ⟨bias, #[], [], by simp⟩

/-- The offset behind the last entry. -/
def limit (unit : MemoryUnit) : Nat := unit.entries.size + 1

def addEntry (unit : MemoryUnit) (entry : MemoryEntry) (known : entry.parent < unit.limit) :
    MemoryUnit :=
  { unit with
    entries := unit.entries.push entry
    parent_le := by
      intro index inside
      rw [Array.getElem_push]
      split
      · exact unit.parent_le _
      · simp only [Array.size_push] at inside
        simp only [limit] at known
        omega }

def addRow (unit : MemoryUnit) (row : MemoryRow) : MemoryUnit :=
  { unit with rows := unit.rows ++ [row] }

/-- The entry at an offset other than the root's. -/
def entryAt? (unit : MemoryUnit) : (offset : Nat) → Option MemoryEntry
  | 0 => none
  | index + 1 => unit.entries[index]?

/-- The parent of the entry at an offset.  The root has none. -/
def parent? (unit : MemoryUnit) (offset : Nat) : Option Nat :=
  (unit.entryAt? offset).map (·.parent)

theorem parent_lt (unit : MemoryUnit) {offset parent : Nat}
    (found : unit.parent? offset = some parent) : parent < offset := by
  cases offset with
  | zero => simp [parent?, entryAt?] at found
  | succ index =>
      simp only [parent?, entryAt?, Option.map_eq_some_iff] at found
      obtain ⟨entry, present, rfl⟩ := found
      obtain ⟨inside, rfl⟩ := Array.getElem?_eq_some_iff.mp present
      exact Nat.lt_succ_of_le (unit.parent_le inside)

def children (unit : MemoryUnit) (offset : Nat) : List Nat :=
  (List.range unit.limit).filter fun child => unit.parent? child == some offset

theorem lt_of_mem_children (unit : MemoryUnit) {offset child : Nat}
    (member : child ∈ unit.children offset) : offset < child ∧ child < unit.limit := by
  simp only [children, List.mem_filter, List.mem_range, beq_iff_eq] at member
  exact ⟨unit.parent_lt member.2, member.1⟩

def tag? (unit : MemoryUnit) (offset : Nat) : Option Tag :=
  if offset = 0 then some .compileUnit else (unit.entryAt? offset).map (·.tag)

def ranges (unit : MemoryUnit) (offset : Nat) : List AddressInterval :=
  ((unit.entryAt? offset).map (·.ranges)).getD []

def isScope (unit : MemoryUnit) (offset : Nat) : Bool := (unit.tag? offset).any Tag.isScope

/-- Whether some range of the entry holds the on-disk address. -/
def covers (unit : MemoryUnit) (address : UInt64) (offset : Nat) : Bool :=
  (unit.ranges offset).any (·.contains address)

/-- The number of visits that a walk makes below and at an entry. -/
def weight (unit : MemoryUnit) (offset : Nat) : Nat :=
  1 + total ((unit.children offset).attach.map fun child => unit.weight child.1)
  termination_by unit.limit - offset
  decreasing_by
    have := unit.lt_of_mem_children child.2
    omega

theorem weight_eq (unit : MemoryUnit) (offset : Nat) :
    unit.weight offset = 1 + total ((unit.children offset).map unit.weight) := by
  rw [weight]
  congr 2
  exact List.attach_map_val (f := unit.weight)

/-- The entry and those around it, from the inside out. -/
def enclosing (unit : MemoryUnit) (offset : Nat) : List Nat :=
  match _ : unit.parent? offset with
  | none => [offset]
  | some parent => offset :: unit.enclosing parent
  termination_by offset
  decreasing_by exact unit.parent_lt (by assumption)

/-- The deeper of two scopes given by depth and offset, the first one if they are at one depth. -/
def deeper (best : Option (Nat × Nat)) (scope : Nat × Nat) : Option (Nat × Nat) :=
  match best with
  | none => some scope
  | some found => if found.1 < scope.1 then some scope else some found

/-- Works through the entries that are still to be visited, given by depth and offset, the next one
first, and answers with the first of the deepest scopes.  A scope that misses the address hides all
that is below it. -/
def innermost (unit : MemoryUnit) (address : UInt64) (best : Option (Nat × Nat)) :
    (pending : List (Nat × Nat)) → Option (Nat × Nat)
  | [] => best
  | (depth, offset) :: pending =>
    let below := (unit.children offset).map fun child => (depth + 1, child)
    if unit.isScope offset then
      if unit.covers address offset then
        unit.innermost address (deeper best (depth, offset)) (below ++ pending)
      else unit.innermost address best pending
    else unit.innermost address best (below ++ pending)
  termination_by pending => total (pending.map fun entry => unit.weight entry.2)
  decreasing_by
    all_goals
      have weighed : unit.weight offset =
          1 + total ((unit.children offset).map fun child => unit.weight child) :=
        unit.weight_eq offset
      simp only [List.map_cons, List.map_append, List.map_map, total, total_append,
        Function.comp_def]
      omega

/-- The entries around an on-disk address: the deepest scope that it is in and those around it. -/
def scopes (unit : MemoryUnit) (address : UInt64) : List Nat :=
  match unit.innermost address none [(0, 0)] with
  | none => []
  | some scope => unit.enclosing scope.2

/-- The position of the last row, in the order of the addresses, that is not behind the address. -/
def position? (unit : MemoryUnit) (address : UInt64) : Option SourcePosition :=
  let sorted := unit.rows.mergeSort fun left right => left.address ≤ right.address
  ((sorted.filter (·.address ≤ address)).getLast?).map (·.position)

end MemoryUnit

/-- A stretch of addresses that the table of a module assigns to one of its units. -/
structure MemoryAssignment where
  range : AddressInterval
  unit : Nat
  deriving DecidableEq, Repr

structure MemorySymbol where
  address : UInt64
  name : String
  deriving DecidableEq, Repr

namespace MemorySymbol

/-- Symbols are ordered by address, those at one address by name. -/
def le (left right : MemorySymbol) : Bool :=
  left.address < right.address || (left.address == right.address && !(right.name < left.name))

end MemorySymbol

structure MemoryModule where
  name : String
  bias : UInt64
  extent : AddressInterval
  symbols : List MemorySymbol
  units : List MemoryUnit
  assignments : List MemoryAssignment
  isVisible : Bool

namespace MemoryModule

/-- The on-disk address of a runtime address, which must not lie below the bias. -/
def onDisk? (module : MemoryModule) (address : UInt64) : Option UInt64 :=
  if module.bias ≤ address then some (address - module.bias) else none

/-- The last symbol, in order, that is not behind the on-disk address. -/
def nearest? (module : MemoryModule) (address : UInt64) : Option NearestSymbol :=
  let sorted := module.symbols.mergeSort MemorySymbol.le
  ((sorted.filter (·.address ≤ address)).getLast?).map fun symbol =>
    ⟨symbol.name, address - symbol.address⟩

end MemoryModule

/-- A session over modules given as values.  The handle of a module is its place in the list,
counted from one. -/
structure InMemorySession where
  modules : List MemoryModule
  batch : Option (List ModuleHandle)
  enumerations : Nat

namespace InMemorySession

def ofModules (modules : List MemoryModule) : InMemorySession := ⟨modules, none, 0⟩

def module? (session : InMemorySession) (handle : ModuleHandle) : Option MemoryModule :=
  match handle.number with
  | 0 => none
  | index + 1 => session.modules[index]?

def unit? (session : InMemorySession) (handle : UnitHandle) : Option MemoryUnit :=
  (session.module? handle.module).bind (·.units[handle.index]?)

def handles (session : InMemorySession) : List (ModuleHandle × MemoryModule) :=
  session.modules.zipIdx.map fun entry => (⟨entry.2 + 1⟩, entry.1)

def reportBegin (session : InMemorySession) : InMemorySession := { session with batch := some [] }

def reportModule (session : InMemorySession) (path : FilePath) (loadAddress : UInt64) :
    Except SymbolizeError ModuleHandle × InMemorySession :=
  match session.batch with
  | none => (.error .notReporting, session)
  | some batch =>
    match session.handles.find? fun entry =>
        path.isSame entry.2.name && entry.2.bias == loadAddress with
    | none => (.error (.file (.unknownModule path.told)), session)
    | some entry => (.ok entry.1, { session with batch := some (batch ++ [entry.1]) })

/-- Makes exactly the modules of the batch visible. -/
def reportEnd (session : InMemorySession) : Except SymbolizeError Unit × InMemorySession :=
  match session.batch with
  | none => (.error .notReporting, session)
  | some batch =>
    let modules := session.handles.map fun entry =>
      { entry.2 with isVisible := batch.contains entry.1 }
    (.ok (), { session with modules, batch := none })

/-- The first visible module that spans the runtime address. -/
def moduleAt (session : InMemorySession) (address : UInt64) : Option ModuleHandle :=
  (session.handles.find? fun entry =>
    entry.2.isVisible && entry.2.extent.contains address).map (·.1)

/-- The unit that the first matching assignment names. -/
def unitAt (session : InMemorySession) (handle : ModuleHandle) (address : UInt64) :
    Option OwnedUnit := do
  let module ← session.module? handle
  let onDisk ← module.onDisk? address
  let assignment ← module.assignments.find? (·.range.contains onDisk)
  let unit ← module.units[assignment.unit]?
  some ⟨⟨handle, assignment.unit⟩, unit.bias⟩

def units (session : InMemorySession) (handle : ModuleHandle) : List OwnedUnit :=
  match session.module? handle with
  | none => []
  | some module =>
    module.units.zipIdx.map fun entry => ⟨⟨handle, entry.2⟩, entry.1.bias⟩

def children (session : InMemorySession) (entry : EntryHandle) : List EntryHandle :=
  match session.unit? entry.unit with
  | none => []
  | some unit => (unit.children entry.offset).map fun offset => ⟨entry.unit, offset⟩

/-- Above every offset of a unit. -/
def limit (session : InMemorySession) (handle : UnitHandle) : Nat :=
  match session.unit? handle with
  | none => 0
  | some unit => unit.limit

theorem mem_children (session : InMemorySession) {parent child : EntryHandle}
    (member : child ∈ session.children parent) :
    child.unit = parent.unit ∧ parent.offset < child.offset ∧
      child.offset < session.limit parent.unit := by
  unfold children at member
  unfold limit
  cases found : session.unit? parent.unit with
  | none => simp [found] at member
  | some unit =>
      simp only [found, List.mem_map] at member
      obtain ⟨offset, inside, rfl⟩ := member
      have bounds := unit.lt_of_mem_children inside
      exact ⟨rfl, bounds.1, bounds.2⟩

def view (session : InMemorySession) : DebugView where
  moduleAt := session.moduleAt
  moduleInfo handle :=
    (session.module? handle).map fun module => ⟨module.name, module.extent.low⟩
  nearestSymbol handle address := do
    let module ← session.module? handle
    let onDisk ← module.onDisk? address
    module.nearest? onDisk
  unitAt := session.unitAt
  units := session.units
  root handle := (session.unit? handle).map fun _ => ⟨handle, 0⟩
  children := session.children
  tag entry := do
    let unit ← session.unit? entry.unit
    unit.tag? entry.offset
  isDeclaration entry :=
    ((session.unit? entry.unit).bind (·.entryAt? entry.offset)).any (·.isDeclaration)
  ranges entry :=
    ((session.unit? entry.unit).map (·.ranges entry.offset)).getD []
  linkageName entry := do
    let unit ← session.unit? entry.unit
    let found ← unit.entryAt? entry.offset
    found.name
  callSite entry :=
    (((session.unit? entry.unit).bind (·.entryAt? entry.offset)).map (·.callSite)).getD .unknown
  sourcePosition handle address := do
    let unit ← session.unit? handle
    unit.position? address
  scopes handle address :=
    match session.unit? handle with
    | none => []
    | some unit => (unit.scopes address).map fun offset => ⟨handle, offset⟩
  limit := session.limit
  child_unit member := (session.mem_children member).1
  child_after member := (session.mem_children member).2.1
  child_below member := (session.mem_children member).2.2

instance : DebugSession InMemorySession where
  reportBegin := reportBegin
  reportModule := reportModule
  reportEnd := reportEnd
  view := view
  noteEnumeration session _ := { session with enumerations := session.enumerations + 1 }

end InMemorySession

end Symbolization
