import Symbolization.Session.View

/-!
# The code of one unit

A range set holds the runtime ranges of the routines of a unit, gathered from its entries.  It
stands in for the module's own address table where that table has nothing to say.
-/

namespace Symbolization

/-- The gathered ranges of a unit and a box around them, which may span gaps. -/
structure RangeSet where
  unit : UnitHandle
  bias : UInt64
  bounds : AddressInterval
  ranges : List AddressInterval
  deriving Repr

namespace DebugView

/-- The ranges that an entry contributes: those of a routine, at run time, without empty ones. -/
def codeRanges (view : DebugView) (bias : UInt64) (entry : EntryHandle) : List AddressInterval :=
  if (view.tag entry).any Tag.isRoutine then
    ((view.ranges entry).map (·.shift bias)).filter fun range => range.low < range.high
  else []

/-- The children of an entry below which routines are looked for. -/
def openChildren (view : DebugView) (entry : EntryHandle) : List EntryHandle :=
  (view.children entry).filter fun child => !view.isDeclaration child

theorem total_weight_openChildren_lt (view : DebugView) (entry : EntryHandle) :
    total ((view.openChildren entry).map view.weight) < view.weight entry := by
  rw [weight_eq, openChildren]
  have bound (items : List EntryHandle) (test : EntryHandle → Bool) :
      total ((items.filter test).map view.weight) ≤ total (items.map view.weight) := by
    induction items with
    | nil => simp
    | cons item items induction =>
        by_cases kept : test item = true <;> simp [kept, total] <;> omega
  have := bound (view.children entry) fun child => !view.isDeclaration child
  omega

/-- Works through the entries whose children are still to be looked at, the next one first.
Routines may sit at any depth below namespaces and classes, so every subtree is walked except
those of declarations. -/
def gather (view : DebugView) (bias : UInt64) : (pending : List EntryHandle) →
    List AddressInterval
  | [] => []
  | entry :: pending =>
    (view.children entry).flatMap (view.codeRanges bias)
      ++ view.gather bias ((view.openChildren entry).reverse ++ pending)
  termination_by pending => total (pending.map view.weight)
  decreasing_by
    have := view.total_weight_openChildren_lt entry
    simp only [List.map_append, List.map_reverse, total_append, total_reverse, List.map_cons,
      total]
    omega

end DebugView

namespace RangeSet

def build (view : DebugView) (unit : UnitHandle) (bias : UInt64) : RangeSet :=
  let ranges :=
    match view.root unit with
    | none => []
    | some root => view.gather bias [root]
  ⟨unit, bias, ranges.foldl AddressInterval.cover .unset, ranges⟩

/-- Whether some gathered range holds the address.  The box rules most addresses out. -/
def contains (set : RangeSet) (address : UInt64) : Bool :=
  set.bounds.contains address && set.ranges.any (·.contains address)

def isEmpty (set : RangeSet) : Bool := set.ranges.isEmpty

end RangeSet

end Symbolization
