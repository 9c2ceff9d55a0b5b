/-!
# Searching sorted lists

A list that is sorted by a 64-bit number of its items, such as an address, is cut behind the last
item whose number is not above the one that is looked for.  From there it is searched towards its
front.  Or else the item with just that number is looked for, and where there is none the item in
front of its place is taken.
-/

namespace Symbolization

variable {α : Type}

/-- The first place from `low` on, up to `high`, where no item passes the test.  The stretch between
them is halved until nothing of it is left, so all items that pass must stand in front. -/
def partitionBetween (test : α → Bool) (items : List α) (low high : Nat) : Nat :=
  if low < high then
    let middle := (low + high) / 2
    if items[middle]?.any test then partitionBetween test items (middle + 1) high
    else partitionBetween test items low middle
  else low
  termination_by high - low

/-- The number of items that pass the test, where these stand in front of all others. -/
def partitionPoint (test : α → Bool) (items : List α) : Nat :=
  partitionBetween test items 0 items.length

/-- The last item that passes the test, among those in front whose numbers are not above the
bound. -/
def lastUpTo? (key : α → UInt64) (bound : UInt64) (test : α → Bool) (items : List α) : Option α :=
  (items.take (partitionPoint (fun item => key item ≤ bound) items)).reverse.find? test

/-- Where an item with a number stands in a list. -/
inductive Placement where
  /-- There is one at the place. -/
  | present (place : Nat)
  /-- There is none.  One could be put in front of what stands at the place. -/
  | absent (place : Nat)
  deriving DecidableEq, Repr

/-- Halves the stretch of `size` items from `base` on as long as it has more than one item.  The half
that starts with an item whose number is not above the bound is kept, or else the half before it. -/
def narrow (key : α → UInt64) (bound : UInt64) (items : List α) (base size : Nat) : Nat :=
  if 1 < size then
    let middle := base + size / 2
    if items[middle]?.any (key · ≤ bound) then narrow key bound items middle (size - size / 2)
    else narrow key bound items base (size - size / 2)
  else base
  termination_by size

/-- Looks for an item with the number. -/
def placement (key : α → UInt64) (number : UInt64) (items : List α) : Placement :=
  let place := narrow key number items 0 items.length
  match items[place]? with
  | none => .absent 0
  | some item =>
    if key item = number then .present place
    else .absent (if key item < number then place + 1 else place)

/-- The item with the number or, if there is none, the one in front of its place. -/
def atOrBefore? (key : α → UInt64) (number : UInt64) (items : List α) : Option α :=
  match placement key number items with
  | .present place => items[place]?
  | .absent 0 => none
  | .absent (place + 1) => items[place]?

end Symbolization
