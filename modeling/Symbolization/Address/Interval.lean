/-!
# Half-open address intervals

An interval `[low, high)` of 64-bit addresses.  Zero is the unset mark on both ends: the default
interval is empty and adds nothing to a bounding box.
-/

namespace Symbolization

/-- The addresses from `low` up to, but not including, `high`. -/
structure AddressInterval where
  low : UInt64
  high : UInt64
  deriving DecidableEq, Repr

namespace AddressInterval

def unset : AddressInterval := ⟨0, 0⟩

instance : Inhabited AddressInterval := ⟨unset⟩

def contains (interval : AddressInterval) (address : UInt64) : Bool :=
  decide (interval.low ≤ address) && decide (address < interval.high)

/-- Whether neither end was ever set. -/
def isUnset (interval : AddressInterval) : Bool :=
  interval.low == 0 && interval.high == 0

/-- Moves both ends by `bias`, modulo 2^64. -/
def shift (interval : AddressInterval) (bias : UInt64) : AddressInterval :=
  ⟨interval.low + bias, interval.high + bias⟩

/-- The lesser of two lower ends, where zero stands for no end at all. -/
def leastSet (left right : UInt64) : UInt64 :=
  if right ≠ 0 ∧ (left = 0 ∨ right < left) then right else left

/-- The greater of two upper ends, where zero stands for no end at all. -/
def greatestSet (left right : UInt64) : UInt64 :=
  if right ≠ 0 ∧ (left = 0 ∨ left < right) then right else left

/-- The bounding box of two intervals.  An unset end of either one is ignored. -/
def cover (bounds other : AddressInterval) : AddressInterval :=
  ⟨leastSet bounds.low other.low, greatestSet bounds.high other.high⟩

/-- Intervals are ordered by their lower ends, equal ones by their upper ends. -/
def order (left right : AddressInterval) : Ordering :=
  (compare left.low right.low).then (compare left.high right.high)

instance : Ord AddressInterval := ⟨order⟩

def sort (intervals : List AddressInterval) : List AddressInterval :=
  intervals.mergeSort fun left right => (order left right).isLE

end AddressInterval

end Symbolization
