import Mathlib.Data.List.Basic
import Symbolization.Files.Path

/-!
# Reading what was written in UTF-8

The bytes of a character are read as that character whatever stands behind them, so a text is read
back from its bytes.  A path is therefore a matter of its bytes.
-/

namespace Symbolization

namespace Utf8

theorem toNat_ofNat_of_lt {number : Nat} (small : number < 256) :
    (UInt8.ofNat number).toNat = number := by
  rw [UInt8.toNat_ofNat', Nat.mod_eq_of_lt small]

theorem lead_eq (byte : UInt8) : lead byte =
    if byte.toNat < 0x80 then .single (Char.ofNat byte.toNat)
    else if byte.toNat < 0xc2 then .invalid
    else if byte.toNat < 0xe0 then .start (byte.toNat - 0xc0) 0x80 0xbf 0
    else if byte.toNat = 0xe0 then .start 0 0xa0 0xbf 1
    else if byte.toNat = 0xed then .start 0xd 0x80 0x9f 1
    else if byte.toNat < 0xf0 then .start (byte.toNat - 0xe0) 0x80 0xbf 1
    else if byte.toNat = 0xf0 then .start 0 0x90 0xbf 2
    else if byte.toNat < 0xf4 then .start (byte.toNat - 0xf0) 0x80 0xbf 2
    else if byte.toNat = 0xf4 then .start 4 0x80 0x8f 2
    else .invalid := by
  simp only [lead, UInt8.lt_iff_toNat_lt, ← UInt8.toNat_inj]
  rfl

theorem decode_of_start {byte : UInt8} {bits others : Nat} {least greatest : UInt8}
    {bytes rest : List UInt8} {char : Option Char}
    (starts : lead byte = .start bits least greatest others)
    (read : continuation bits least greatest others bytes = (char, rest)) :
    decode (byte :: bytes) = char :: decode rest := by
  rw [decode, starts]
  simp only [read]

variable {bits value others : Nat} {least greatest : UInt8} {rest : List UInt8}

theorem tail_bounds (atLeast : least.toNat ≤ value % 64 + 128)
    (atMost : value % 64 + 128 ≤ greatest.toNat) :
    (least ≤ UInt8.ofNat (value % 64 + 128) ∧ UInt8.ofNat (value % 64 + 128) ≤ greatest) ∧
      (UInt8.ofNat (value % 64 + 128)).toNat - 0x80 = value % 64 := by
  rw [UInt8.le_iff_toNat_le, UInt8.le_iff_toNat_le, toNat_ofNat_of_lt (by omega)]
  exact ⟨⟨atLeast, atMost⟩, Nat.add_sub_cancel _ _⟩

theorem continuation_succ (atLeast : least.toNat ≤ value % 64 + 128)
    (atMost : value % 64 + 128 ≤ greatest.toNat) :
    continuation bits least greatest (others + 1) (UInt8.ofNat (value % 64 + 128) :: rest) =
      continuation (64 * bits + value % 64) 0x80 0xbf others rest := by
  obtain ⟨inBounds, added⟩ := tail_bounds atLeast atMost
  rw [continuation, if_pos inBounds, added]

theorem continuation_zero (atLeast : least.toNat ≤ value % 64 + 128)
    (atMost : value % 64 + 128 ≤ greatest.toNat) :
    continuation bits least greatest 0 (UInt8.ofNat (value % 64 + 128) :: rest) =
      (some (Char.ofNat (64 * bits + value % 64)), rest) := by
  obtain ⟨inBounds, added⟩ := tail_bounds atLeast atMost
  rw [continuation, if_pos inBounds, added]

theorem between_tail (value : Nat) :
    (0x80 : UInt8).toNat ≤ value % 64 + 128 ∧ value % 64 + 128 ≤ (0xbf : UInt8).toNat := by
  simp only [UInt8.reduceToNat]
  omega

variable {code : Nat}

theorem lead_two (least : 0x80 ≤ code) (most : code < 0x800) :
    lead (UInt8.ofNat (code / 64 % 32 + 192)) = .start (code / 64) 0x80 0xbf 0 := by
  have bits : code / 64 % 32 + 192 - 0xc0 = code / 64 := by omega
  rw [lead_eq, toNat_ofNat_of_lt (by omega), if_neg (by omega), if_neg (by omega),
    if_pos (by omega), bits]

theorem lead_three (least : 0x800 ≤ code) (most : code < 0x10000) (valid : code.isValidChar) :
    ∃ low high, lead (UInt8.ofNat (code / 4096 % 16 + 224)) = .start (code / 4096) low high 1 ∧
      low.toNat ≤ code / 64 % 64 + 128 ∧ code / 64 % 64 + 128 ≤ high.toNat := by
  have bits : code / 4096 % 16 + 224 - 0xe0 = code / 4096 := by omega
  rw [lead_eq, toNat_ofNat_of_lt (by omega), if_neg (by omega), if_neg (by omega),
    if_neg (by omega), bits]
  unfold Nat.isValidChar at valid
  split
  · refine ⟨0xa0, 0xbf, ?_, ?_⟩
    · rw [show code / 4096 = 0 by omega]
    · simp only [UInt8.reduceToNat]
      omega
  · split
    · refine ⟨0x80, 0x9f, ?_, ?_⟩
      · rw [show code / 4096 = 0xd by omega]
      · simp only [UInt8.reduceToNat]
        omega
    · exact ⟨0x80, 0xbf, if_pos (by omega), between_tail _⟩

theorem lead_four (least : 0x10000 ≤ code) (valid : code.isValidChar) :
    ∃ low high, lead (UInt8.ofNat (code / 262144 % 8 + 240)) =
        .start (code / 262144) low high 2 ∧
      low.toNat ≤ code / 4096 % 64 + 128 ∧ code / 4096 % 64 + 128 ≤ high.toNat := by
  unfold Nat.isValidChar at valid
  have bits : code / 262144 % 8 + 240 - 0xf0 = code / 262144 := by omega
  rw [lead_eq, toNat_ofNat_of_lt (by omega), if_neg (by omega), if_neg (by omega),
    if_neg (by omega), if_neg (by omega), if_neg (by omega), if_neg (by omega), bits]
  split
  · refine ⟨0x90, 0xbf, ?_, ?_⟩
    · rw [show code / 262144 = 0 by omega]
    · simp only [UInt8.reduceToNat]
      omega
  · split
    · exact ⟨0x80, 0xbf, rfl, between_tail _⟩
    · refine ⟨0x80, 0x8f, ?_, ?_⟩
      · rw [if_pos (by omega), show code / 262144 = 4 by omega]
      · simp only [UInt8.reduceToNat]
        omega

/-- The bytes of a character are read as the character, in front of whatever else there is. -/
theorem decode_utf8EncodeChar_append (char : Char) (rest : List UInt8) :
    decode (String.utf8EncodeChar char ++ rest) = some char :: decode rest := by
  have valid : char.toNat.isValidChar := char.valid
  have same : Char.ofNat char.toNat = char := Char.ofNat_toNat char
  unfold String.utf8EncodeChar
  rw [show char.val.toNat = char.toNat from rfl]
  generalize char.toNat = code at valid same
  dsimp only
  split
  · rw [List.singleton_append, decode, lead_eq, toNat_ofNat_of_lt (by omega), if_pos (by omega),
      same]
  split
  · obtain ⟨atLeast, atMost⟩ := between_tail code
    rw [List.cons_append, List.singleton_append]
    refine decode_of_start (lead_two (by omega) (by omega)) ?_
    rw [continuation_zero atLeast atMost, Nat.div_add_mod, same]
  split
  · obtain ⟨low, high, starts, inBounds⟩ := lead_three (by omega) (by omega) valid
    obtain ⟨atLeast, atMost⟩ := between_tail code
    have above : 64 * (code / 4096) + code / 64 % 64 = code / 64 := by omega
    rw [List.cons_append, List.cons_append, List.singleton_append]
    refine decode_of_start starts ?_
    rw [continuation_succ inBounds.1 inBounds.2, above, continuation_zero atLeast atMost,
      Nat.div_add_mod, same]
  · obtain ⟨low, high, starts, inBounds⟩ := lead_four (by omega) valid
    obtain ⟨atLeastMiddle, atMostMiddle⟩ := between_tail (code / 64)
    obtain ⟨atLeast, atMost⟩ := between_tail code
    have upper : 64 * (code / 262144) + code / 4096 % 64 = code / 4096 := by omega
    have above : 64 * (code / 4096) + code / 64 % 64 = code / 64 := by omega
    rw [List.cons_append, List.cons_append, List.cons_append, List.singleton_append]
    refine decode_of_start starts ?_
    rw [continuation_succ inBounds.1 inBounds.2, upper,
      continuation_succ atLeastMiddle atMostMiddle, above, continuation_zero atLeast atMost,
      Nat.div_add_mod, same]

theorem decode_flatMap_utf8EncodeChar (chars : List Char) :
    decode (chars.flatMap String.utf8EncodeChar) = chars.map some := by
  induction chars with
  | nil => rw [List.flatMap_nil, decode, List.map_nil]
  | cons char chars induction =>
      rw [List.flatMap_cons, decode_utf8EncodeChar_append, induction, List.map_cons]

theorem strict?_flatMap_utf8EncodeChar (text : String) :
    strict? (text.toList.flatMap String.utf8EncodeChar) = some text := by
  have read : (text.toList.map some).mapM id = some text.toList := by
    rw [List.mapM_map]
    exact (List.mapM_pure : text.toList.mapM (fun char => pure char) = _).trans
      (congrArg some (List.map_id' _))
  rw [strict?, decode_flatMap_utf8EncodeChar, read, Option.map_some, String.ofList_toList]

end Utf8

theorem FilePath.bytes_injective : Function.Injective FilePath.bytes := by
  intro left right same
  cases left with
  | text text =>
      have isText := Utf8.strict?_flatMap_utf8EncodeChar text
      cases right with
      | text other =>
          have isOther := Utf8.strict?_flatMap_utf8EncodeChar other
          change text.toList.flatMap String.utf8EncodeChar = _ at same
          rw [same] at isText
          exact congrArg FilePath.text (Option.some.inj (isText.symm.trans isOther))
      | illFormed bytes noText =>
          change text.toList.flatMap String.utf8EncodeChar = bytes at same
          rw [same, noText] at isText
          contradiction
  | illFormed bytes noText =>
      cases right with
      | text other =>
          change bytes = other.toList.flatMap String.utf8EncodeChar at same
          rw [same, Utf8.strict?_flatMap_utf8EncodeChar] at noText
          contradiction
      | illFormed others noOtherText =>
          cases same
          rfl

end Symbolization
