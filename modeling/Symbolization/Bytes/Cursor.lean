/-!
# Cursors over bytes

A cursor is a place in a stretch of bytes that is being read, with the byte order of its numbers.
-/

namespace Symbolization

inductive Endian where
  | little
  | big
  deriving DecidableEq, Repr

namespace Endian

def value (endian : Endian) (bytes : List UInt8) : Nat :=
  let ordered := match endian with
    | .little => bytes
    | .big => bytes.reverse
  ordered.foldr (fun byte high => byte.toNat + 256 * high) 0

end Endian

/-- The bytes from `position` up to, but not including, `limit` are still to be read. -/
structure Cursor where
  bytes : ByteArray
  endian : Endian
  position : Nat
  limit : Nat
  position_le : position ≤ limit
  limit_le : limit ≤ bytes.size

namespace Cursor

def start (bytes : ByteArray) (endian : Endian) : Cursor :=
  ⟨bytes, endian, 0, bytes.size, Nat.zero_le _, Nat.le_refl _⟩

def remaining (cursor : Cursor) : Nat := cursor.limit - cursor.position

def atEnd (cursor : Cursor) : Bool := cursor.position == cursor.limit

def skip? (cursor : Cursor) (count : Nat) : Option Cursor :=
  if inside : cursor.position + count ≤ cursor.limit then
    some { cursor with position := cursor.position + count, position_le := inside }
  else none

/-- The cursor over only the next `count` bytes, if there are that many. -/
def take? (cursor : Cursor) (count : Nat) : Option Cursor :=
  if inside : cursor.position + count ≤ cursor.limit then
    some { cursor with
      limit := cursor.position + count
      position_le := Nat.le_add_right _ _
      limit_le := Nat.le_trans inside cursor.limit_le }
  else none

/-- `last` is `first` after some bytes, possibly none, were read. -/
structure Reaches (first last : Cursor) : Prop where
  bytes : last.bytes = first.bytes
  endian : last.endian = first.endian
  limit : last.limit = first.limit
  position : first.position ≤ last.position

namespace Reaches

theorem refl (cursor : Cursor) : Reaches cursor cursor := ⟨rfl, rfl, rfl, Nat.le_refl _⟩

theorem trans {first middle last : Cursor} (before : Reaches first middle)
    (after : Reaches middle last) : Reaches first last where
  bytes := after.bytes.trans before.bytes
  endian := after.endian.trans before.endian
  limit := after.limit.trans before.limit
  position := Nat.le_trans before.position after.position

theorem remaining_le {first last : Cursor} (reaches : Reaches first last) :
    last.remaining ≤ first.remaining := by
  have limit := reaches.limit
  have position := reaches.position
  simp only [remaining]
  omega

theorem remaining_lt {first last : Cursor} (reaches : Reaches first last)
    (moved : first.position < last.position) : last.remaining < first.remaining := by
  have limit := reaches.limit
  have inside := last.position_le
  simp only [remaining]
  omega

end Reaches

theorem reaches_of_skip? {cursor next : Cursor} {count : Nat}
    (skipped : cursor.skip? count = some next) : cursor.Reaches next := by
  unfold skip? at skipped
  split at skipped
  · cases skipped
    exact ⟨rfl, rfl, rfl, Nat.le_add_right _ _⟩
  · contradiction

theorem position_of_skip? {cursor next : Cursor} {count : Nat}
    (skipped : cursor.skip? count = some next) : next.position = cursor.position + count := by
  unfold skip? at skipped
  split at skipped
  · cases skipped
    rfl
  · contradiction

end Cursor

end Symbolization
