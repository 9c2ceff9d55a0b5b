/-!
# UTF-8

Bytes are read as characters strictly, or with every ill-formed stretch replaced by U+FFFD.  A
stretch that is replaced as one is the longest start of a well-formed sequence, or a single byte
where none starts.
-/

namespace Symbolization

namespace Utf8

/-- What a byte announces as the first one of a sequence: the bits it gives, and the least and
greatest value of the byte after it together with the number of bytes after that one. -/
inductive Lead where
  | single (char : Char)
  | start (bits : Nat) (least greatest : UInt8) (others : Nat)
  | invalid

/-- The role of a byte at the start of a sequence.  The bounds on the second byte exclude
overlong forms, surrogates and code points above U+10FFFF. -/
def lead (byte : UInt8) : Lead :=
  if byte < 0x80 then .single (Char.ofNat byte.toNat)
  else if byte < 0xc2 then .invalid
  else if byte < 0xe0 then .start (byte.toNat - 0xc0) 0x80 0xbf 0
  else if byte = 0xe0 then .start 0 0xa0 0xbf 1
  else if byte = 0xed then .start 0xd 0x80 0x9f 1
  else if byte < 0xf0 then .start (byte.toNat - 0xe0) 0x80 0xbf 1
  else if byte = 0xf0 then .start 0 0x90 0xbf 2
  else if byte < 0xf4 then .start (byte.toNat - 0xf0) 0x80 0xbf 2
  else if byte = 0xf4 then .start 4 0x80 0x8f 2
  else .invalid

/-- Reads the bytes that a first byte announced.  Answers the character, if they are all there,
and the bytes that were not used up. -/
def continuation (bits : Nat) (least greatest : UInt8) :
    (others : Nat) → List UInt8 → Option Char × List UInt8
  | _, [] => (none, [])
  | 0, byte :: rest =>
    if least ≤ byte ∧ byte ≤ greatest then
      (some (Char.ofNat (64 * bits + (byte.toNat - 0x80))), rest)
    else (none, byte :: rest)
  | others + 1, byte :: rest =>
    if least ≤ byte ∧ byte ≤ greatest then
      continuation (64 * bits + (byte.toNat - 0x80)) 0x80 0xbf others rest
    else (none, byte :: rest)

theorem length_continuation_le (bits : Nat) (least greatest : UInt8) (others : Nat)
    (bytes : List UInt8) :
    (continuation bits least greatest others bytes).2.length ≤ bytes.length := by
  induction others generalizing bits least greatest bytes with
  | zero =>
      cases bytes with
      | nil => simp [continuation]
      | cons byte rest =>
          unfold continuation
          split <;> simp
  | succ others induction =>
      cases bytes with
      | nil => simp [continuation]
      | cons byte rest =>
          unfold continuation
          split
          · exact Nat.le_succ_of_le (induction _ _ _ rest)
          · simp

/-- The characters of a text, with `none` for each stretch that is not well-formed. -/
def decode : List UInt8 → List (Option Char)
  | [] => []
  | byte :: rest =>
    match lead byte with
    | .single char => some char :: decode rest
    | .invalid => none :: decode rest
    | .start bits least greatest others =>
      let outcome := continuation bits least greatest others rest
      outcome.1 :: decode outcome.2
  termination_by bytes => bytes.length
  decreasing_by
    · simp
    · simp
    · exact Nat.lt_succ_of_le (length_continuation_le bits least greatest others rest)

/-- The text with U+FFFD in place of each ill-formed stretch. -/
def lossy (bytes : List UInt8) : String :=
  String.ofList ((decode bytes).map fun char => char.getD '\uFFFD')

def strict? (bytes : List UInt8) : Option String :=
  ((decode bytes).mapM id).map String.ofList

end Utf8

end Symbolization
