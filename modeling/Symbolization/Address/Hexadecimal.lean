/-!
# Addresses as hexadecimal text

An address is written `0x…` in lower case without leading zeros.  It is read with an optional
`0x` or `0X` and an optional plus sign, and must fit 64 bits.
-/

namespace Symbolization

namespace Hexadecimal

def render (address : UInt64) : String :=
  "0x" ++ String.ofList (Nat.toDigits 16 address.toNat)

def digit? (char : Char) : Option Nat :=
  if '0' ≤ char ∧ char ≤ '9' then some (char.toNat - '0'.toNat)
  else if 'a' ≤ char ∧ char ≤ 'f' then some (char.toNat - 'a'.toNat + 10)
  else if 'A' ≤ char ∧ char ≤ 'F' then some (char.toNat - 'A'.toNat + 10)
  else none

inductive ParseError where
  | noDigits
  | badDigit
  | tooLarge
  deriving DecidableEq, Repr

namespace ParseError

def message : ParseError → String
  | .noDigits => "cannot parse integer from empty string"
  | .badDigit => "invalid digit found in string"
  | .tooLarge => "number too large to fit in target type"

end ParseError

/-- Reads the digits after those that gave `value`.  A character that is no digit is reported
before an overflow at the same place. -/
def readDigits (value : Nat) : List Char → Except ParseError UInt64
  | [] => .ok (UInt64.ofNat value)
  | char :: rest =>
    match digit? char with
    | none => .error .badDigit
    | some digit =>
      if 16 * value + digit < UInt64.size then readDigits (16 * value + digit) rest
      else .error .tooLarge

/-- Reads one or more digits after an optional plus sign. -/
def readUnsigned : List Char → Except ParseError UInt64
  | [] => .error .noDigits
  | ['+'] => .error .badDigit
  | '+' :: digits => readDigits 0 digits
  | digits => readDigits 0 digits

/-- Reads an address with or without a leading `0x` or `0X`. -/
def parse (text : String) : Except ParseError UInt64 :=
  match text.toList with
  | '0' :: 'x' :: digits => readUnsigned digits
  | '0' :: 'X' :: digits => readUnsigned digits
  | digits => readUnsigned digits

end Hexadecimal

end Symbolization
