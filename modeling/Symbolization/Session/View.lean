import Symbolization.Address.Interval
import Symbolization.Session.Scope

/-!
# What a session answers

Modules, units and entries are named by handles.  A view holds every question that can be asked
without changing the session: a handle that names nothing registered gets an absent answer.
Entries are numbered so that each child comes after its parent and below the limit of its unit,
which is what makes every walk over a unit end.
-/

namespace Symbolization

structure ModuleHandle where
  number : Nat
  deriving DecidableEq, Repr

/-- Names a compilation unit by its place among the units of its module. -/
structure UnitHandle where
  module : ModuleHandle
  index : Nat
  deriving DecidableEq, Repr

structure EntryHandle where
  unit : UnitHandle
  offset : Nat
  deriving DecidableEq, Repr

/-- A unit together with what was added to its on-disk addresses when it was loaded. -/
structure OwnedUnit where
  unit : UnitHandle
  bias : UInt64
  deriving DecidableEq, Repr

/-- A place in a source file.  Line and column are zero where they are not known. -/
structure SourcePosition where
  file : Option String
  line : Nat
  column : Nat
  deriving DecidableEq, Repr

namespace SourcePosition

def unknown : SourcePosition := ⟨none, 0, 0⟩

instance : Inhabited SourcePosition := ⟨unknown⟩

end SourcePosition

/-- The name of a module and the runtime address at which it starts. -/
structure ModuleInfo where
  name : String
  loadStart : UInt64
  deriving DecidableEq, Repr

/-- A symbol and how far behind its start the address lies. -/
structure NearestSymbol where
  name : String
  offset : UInt64
  deriving DecidableEq, Repr

/-- The answers of a session. -/
structure DebugView where
  /-- The module that holds a runtime address. -/
  moduleAt : UInt64 → Option ModuleHandle
  moduleInfo : ModuleHandle → Option ModuleInfo
  /-- The symbol at or below a runtime address. -/
  nearestSymbol : ModuleHandle → UInt64 → Option NearestSymbol
  /-- The unit to which the module's address table assigns a runtime address. -/
  unitAt : ModuleHandle → UInt64 → Option OwnedUnit
  /-- Every unit of the module in order. -/
  units : ModuleHandle → List OwnedUnit
  /-- The entry at the top of a unit. -/
  root : UnitHandle → Option EntryHandle
  children : EntryHandle → List EntryHandle
  tag : EntryHandle → Option Tag
  /-- Whether the entry only declares a name and owns no code. -/
  isDeclaration : EntryHandle → Bool
  /-- The on-disk addresses of the code of an entry. -/
  ranges : EntryHandle → List AddressInterval
  linkageName : EntryHandle → Option String
  /-- Where the caller invoked an inlined routine. -/
  callSite : EntryHandle → SourcePosition
  /-- The line-table position of an on-disk address. -/
  sourcePosition : UnitHandle → UInt64 → Option SourcePosition
  /-- The scopes around an on-disk address, innermost first. -/
  scopes : UnitHandle → UInt64 → List EntryHandle
  /-- Above every offset of an entry of the unit. -/
  limit : UnitHandle → Nat
  child_unit : ∀ {parent child}, child ∈ children parent → child.unit = parent.unit
  child_after : ∀ {parent child}, child ∈ children parent → parent.offset < child.offset
  child_below : ∀ {parent child}, child ∈ children parent → child.offset < limit parent.unit

def total : List Nat → Nat
  | [] => 0
  | first :: others => first + total others

theorem total_append (first second : List Nat) :
    total (first ++ second) = total first + total second := by
  induction first with
  | nil => exact (Nat.zero_add _).symm
  | cons number first induction =>
      rw [List.cons_append, total, total, induction, Nat.add_assoc]

theorem total_reverse (numbers : List Nat) : total numbers.reverse = total numbers := by
  induction numbers with
  | nil => rfl
  | cons number numbers induction =>
      rw [List.reverse_cons, total_append, induction, total, total, total, Nat.add_zero,
        Nat.add_comm]

namespace DebugView

/-- How many offsets remain behind an entry.  It falls from every entry to its children. -/
def room (view : DebugView) (entry : EntryHandle) : Nat :=
  view.limit entry.unit - entry.offset

theorem room_child_lt (view : DebugView) {parent child : EntryHandle}
    (member : child ∈ view.children parent) : view.room child < view.room parent := by
  have unit := view.child_unit member
  have after := view.child_after member
  have below := view.child_below member
  simp only [room, unit]
  omega

/-- The number of visits a walk makes below and at an entry. -/
def weight (view : DebugView) (entry : EntryHandle) : Nat :=
  1 + total ((view.children entry).attach.map fun child => view.weight child.1)
  termination_by view.room entry
  decreasing_by exact view.room_child_lt child.2

theorem weight_eq (view : DebugView) (entry : EntryHandle) :
    view.weight entry = 1 + total ((view.children entry).map view.weight) := by
  rw [weight]
  congr 2
  exact List.attach_map_val (f := view.weight)

/-- The entries at and below an entry, each before its children, with their depths. -/
def subtree (view : DebugView) (depth : Nat) (entry : EntryHandle) : List (Nat × EntryHandle) :=
  (depth, entry) ::
    (view.children entry).attach.flatMap fun child => view.subtree (depth + 1) child.1
  termination_by view.room entry
  decreasing_by exact view.room_child_lt child.2

def tree (view : DebugView) (unit : UnitHandle) : List (Nat × EntryHandle) :=
  match view.root unit with
  | none => []
  | some root => view.subtree 0 root

end DebugView

end Symbolization
