import Symbolization.Bytes.Reader

/-!
# Variable-length numbers

A number is written in groups of seven bits, the lowest group first; the top bit of each byte tells
whether another group follows.  The number of groups is bounded, and the last one that may occur has
room for only the highest bits.
-/

namespace Symbolization

namespace Reader

/-- An unsigned number of at most `groups` groups, of which the last one may not exceed `top`. -/
def unsignedGroups (top : Nat) : (groups : Nat) → Reader Nat
  | 0 => fail
  | 1 => do
    let group ← byte
    if group.toNat ≤ top then pure group.toNat else fail
  | groups + 2 => do
    let group ← byte
    if group < 0x80 then pure group.toNat
    else do
      let high ← unsignedGroups top (groups + 1)
      pure (group.toNat - 0x80 + 128 * high)

def unsigned : Reader Nat := unsignedGroups 1 10

def unsigned16 : Reader Nat := unsignedGroups 3 3

/-- A signed number of at most `groups` groups, of which the last one repeats the sign. -/
def signedGroups : (groups : Nat) → Reader Int
  | 0 => fail
  | 1 => do
    let group ← byte
    if group = 0 then pure 0 else if group = 0x7f then pure (-1) else fail
  | groups + 2 => do
    let group ← byte
    if group < 0x40 then pure group.toNat
    else if group < 0x80 then pure (group.toNat - 0x80)
    else do
      let high ← signedGroups (groups + 1)
      pure (group.toNat - 0x80 + 128 * high)

def signed : Reader Int := signedGroups 10

theorem unsignedGroups_consumes (top groups : Nat) : (unsignedGroups top groups).Consumes := by
  match groups with
  | 0 =>
      intro first last value found
      contradiction
  | 1 =>
      unfold unsignedGroups
      exact byte_consumes.bind _
  | groups + 2 =>
      unfold unsignedGroups
      exact byte_consumes.bind _

theorem unsigned_consumes : unsigned.Consumes := unsignedGroups_consumes _ _

theorem unsigned16_consumes : unsigned16.Consumes := unsignedGroups_consumes _ _

end Reader

end Symbolization
