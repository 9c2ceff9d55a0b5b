import Mathlib.Data.List.Forall2
import Mathlib.Data.Nat.Digits.Defs
import Symbolization.Address.Hexadecimal

/-!
# Hexadecimal numerals

An address is written as a numeral: digits of base sixteen in either case, the first one counting
most, possibly behind a mark of the base and then a plus sign.  A text is read as an address just
where it is a numeral and the number fits, and a written address is a numeral of itself.
-/

namespace Symbolization

namespace Hexadecimal

/-- The character is the digit of a value, in either case. -/
def IsDigit (char : Char) (value : Nat) : Prop :=
  value < 16 ∧ (char = value.digitChar ∨ char = value.digitChar.toUpper)

/-- The digits, the first one counting most, are those of the number.  There may be needless zeros
in front of the others. -/
def Denotes (digits : List Char) (number : Nat) : Prop :=
  ∃ values, List.Forall₂ IsDigit digits values ∧ Nat.ofDigits 16 values.reverse = number

/-- What may stand before a numeral to tell its base. -/
inductive IsMark : List Char → Prop where
  | none : IsMark []
  | lower : IsMark ['0', 'x']
  | upper : IsMark ['0', 'X']

/-- What may stand before the digits. -/
inductive IsSign : List Char → Prop where
  | none : IsSign []
  | plus : IsSign ['+']

/-- One or more digits of the number, possibly behind a sign. -/
inductive IsUnmarked : List Char → Nat → Prop where
  | digits {sign digits : List Char} {number : Nat} :
      IsSign sign → digits ≠ [] → Denotes digits number → IsUnmarked (sign ++ digits) number

/-- A numeral of the number, possibly behind a mark of its base. -/
inductive IsNumeral : List Char → Nat → Prop where
  | marked {mark chars : List Char} {number : Nat} :
      IsMark mark → IsUnmarked chars number → IsNumeral (mark ++ chars) number

variable {char : Char} {value number : Nat} {chars digits : List Char} {address : UInt64}

/-! Digits. -/

theorem eq_of_codes {low high : Char} (image : Nat → Char)
    (all : ∀ code ≤ high.toNat, low.toNat ≤ code → Char.ofNat code = image code)
    (inRange : low ≤ char ∧ char ≤ high) : char = image char.toNat := by
  have same := all char.toNat (Char.le_def.mp inRange.2) (Char.le_def.mp inRange.1)
  rwa [Char.ofNat_toNat] at same

theorem isDigit_of_digit? (found : digit? char = some value) : IsDigit char value := by
  unfold digit? at found
  split at found
  · rename_i decimal
    have same := eq_of_codes (fun code => (code - '0'.toNat).digitChar) (by decide) decimal
    have bound : char.toNat ≤ 57 := Char.le_def.mp decimal.2
    cases found
    refine ⟨?_, .inl same⟩
    change char.toNat - 48 < 16
    omega
  · split at found
    · rename_i letter
      have same := eq_of_codes (fun code => (code - 'a'.toNat + 10).digitChar) (by decide) letter
      have bound : char.toNat ≤ 102 := Char.le_def.mp letter.2
      cases found
      refine ⟨?_, .inl same⟩
      change char.toNat - 97 + 10 < 16
      omega
    · split at found
      · rename_i capital
        have same := eq_of_codes (fun code => (code - 'A'.toNat + 10).digitChar.toUpper)
          (by decide) capital
        have bound : char.toNat ≤ 70 := Char.le_def.mp capital.2
        cases found
        refine ⟨?_, .inr same⟩
        change char.toNat - 65 + 10 < 16
        omega
      · contradiction

theorem digit?_digitChar : ∀ value < 16, digit? value.digitChar = some value ∧
    digit? value.digitChar.toUpper = some value := by
  decide

theorem digit?_eq_some_iff : digit? char = some value ↔ IsDigit char value := by
  refine ⟨isDigit_of_digit?, ?_⟩
  rintro ⟨inRange, rfl | rfl⟩
  · exact (digit?_digitChar value inRange).1
  · exact (digit?_digitChar value inRange).2

/-! Reading. -/

/-- The number of digits that stand behind others, which gave `start`. -/
def numberBehind (start : Nat) (values : List Nat) : Nat :=
  values.foldl (fun high digit => 16 * high + digit) start

theorem le_numberBehind (start : Nat) (values : List Nat) : start ≤ numberBehind start values := by
  induction values generalizing start with
  | nil => exact Nat.le_refl _
  | cons digit values induction =>
      have := induction (16 * start + digit)
      rw [numberBehind, List.foldl_cons]
      rw [numberBehind] at this
      omega

theorem numberBehind_zero (values : List Nat) :
    numberBehind 0 values = Nat.ofDigits 16 values.reverse := by
  rw [Nat.ofDigits_eq_foldr, List.foldr_reverse, numberBehind]
  congr 1
  funext high digit
  simp [Nat.add_comm]

theorem exists_numberBehind_cons_iff {start : Nat} :
    (∃ values, List.Forall₂ IsDigit (char :: digits) values ∧
        numberBehind start values = number) ↔
      ∃ digit, digit? char = some digit ∧ ∃ values, List.Forall₂ IsDigit digits values ∧
        numberBehind (16 * start + digit) values = number := by
  constructor
  · rintro ⟨_, digitValues, same⟩
    cases digitValues with
    | cons isDigit digitValues =>
        exact ⟨_, digit?_eq_some_iff.mpr isDigit, _, digitValues, same⟩
  · rintro ⟨digit, found, values, digitValues, same⟩
    exact ⟨digit :: values, .cons (digit?_eq_some_iff.mp found) digitValues, same⟩

theorem readDigits_eq_ok_iff {start : Nat} (inRange : start < UInt64.size) :
    readDigits start digits = .ok address ↔
      ∃ values, List.Forall₂ IsDigit digits values ∧
        numberBehind start values = address.toNat := by
  induction digits generalizing start with
  | nil =>
      simp only [readDigits, List.forall₂_nil_left_iff, exists_eq_left, numberBehind,
        List.foldl_nil, Except.ok.injEq]
      constructor
      · rintro rfl
        exact (UInt64.toNat_ofNat_of_lt' inRange).symm
      · rintro rfl
        exact UInt64.ofNat_toNat
  | cons char digits induction =>
      rw [readDigits, exists_numberBehind_cons_iff]
      cases digit? char with
      | none => simp
      | some digit =>
          simp only [Option.some.injEq, exists_eq_left']
          by_cases fits : 16 * start + digit < UInt64.size
          · rw [if_pos fits, induction fits]
          · rw [if_neg fits]
            refine iff_of_false (by simp) ?_
            rintro ⟨values, _, same⟩
            have least := le_numberBehind (16 * start + digit) values
            exact fits (Nat.lt_of_le_of_lt (least.trans_eq same) address.toNat_lt)

theorem readDigits_zero_eq_ok_iff :
    readDigits 0 digits = .ok address ↔ Denotes digits address.toNat := by
  rw [readDigits_eq_ok_iff (by decide)]
  simp only [numberBehind_zero, Denotes]

theorem isSome_digit?_of_denotes (denotes : Denotes digits number) (member : char ∈ digits) :
    (digit? char).isSome := by
  obtain ⟨values, digitValues, -⟩ := denotes
  induction digitValues with
  | nil => contradiction
  | cons isDigit _ induction =>
      rcases List.mem_cons.mp member with rfl | later
      · rw [digit?_eq_some_iff.mpr isDigit]
        rfl
      · exact induction later

theorem isSome_digit?_of_isUnmarked (unmarked : IsUnmarked chars number) (member : char ∈ chars)
    (noPlus : char ≠ '+') : (digit? char).isSome := by
  obtain ⟨sign, _, denotes⟩ := unmarked
  cases sign with
  | none => exact isSome_digit?_of_denotes denotes member
  | plus => exact isSome_digit?_of_denotes denotes ((List.mem_cons.mp member).resolve_left noPlus)

/-- The characters of a numeral are digits, letters of marks and signs. -/
theorem mem_or_isSome_digit?_of_isNumeral (numeral : IsNumeral chars number)
    (member : char ∈ chars) : char ∈ ['x', 'X', '+'] ∨ (digit? char).isSome := by
  by_cases plus : char = '+'
  · simp [plus]
  · obtain ⟨mark, unmarked⟩ := numeral
    rcases List.mem_append.mp member with inMark | behind
    · cases mark with
      | none => contradiction
      | lower | upper =>
          rcases List.mem_cons.mp inMark with rfl | inMark
          · exact .inr rfl
          · simp [List.mem_singleton.mp inMark]
    · exact .inr (isSome_digit?_of_isUnmarked unmarked behind plus)

theorem readUnsigned_of_digits (nonempty : digits ≠ []) (noPlus : digits.head? ≠ some '+') :
    readUnsigned digits = readDigits 0 digits := by
  unfold readUnsigned
  split <;> simp_all

theorem readUnsigned_eq_ok_iff :
    readUnsigned chars = .ok address ↔ IsUnmarked chars address.toNat := by
  constructor
  · intro read
    unfold readUnsigned at read
    split at read
    · contradiction
    · contradiction
    · rename_i digits noDigit
      have nonempty : digits ≠ [] := fun empty => noDigit empty
      exact .digits .plus nonempty (readDigits_zero_eq_ok_iff.mp read)
    · rename_i nonempty _ _
      exact .digits .none nonempty (readDigits_zero_eq_ok_iff.mp read)
  · rintro ⟨sign, nonempty, denotes⟩
    have read := readDigits_zero_eq_ok_iff.mpr denotes
    cases sign with
    | none =>
        rename_i digits
        have noPlus : digits.head? ≠ some '+' := by
          intro plus
          have isDigit := isSome_digit?_of_denotes denotes (List.mem_of_mem_head? plus)
          contradiction
        exact (readUnsigned_of_digits nonempty noPlus).trans read
    | plus =>
        obtain ⟨first, rest, rfl⟩ := List.exists_cons_of_ne_nil nonempty
        exact read

/-- The second character of a mark is no digit, so what is read without a mark starts with none. -/
theorem ne_mark_of_isUnmarked (unmarked : IsUnmarked chars number) {second : Char}
    (noDigit : digit? second = none) (noPlus : second ≠ '+') (rest : List Char) :
    chars ≠ '0' :: second :: rest := by
  rintro rfl
  have isDigit := isSome_digit?_of_isUnmarked unmarked (by simp) noPlus
  rw [noDigit] at isDigit
  contradiction

theorem isNumeral_of_parse {text : String} (read : parse text = .ok address) :
    IsNumeral text.toList address.toNat := by
  unfold parse at read
  split at read
  · rename_i characters
    rw [characters]
    exact (IsNumeral.marked .lower (readUnsigned_eq_ok_iff.mp read) :)
  · rename_i characters
    rw [characters]
    exact (IsNumeral.marked .upper (readUnsigned_eq_ok_iff.mp read) :)
  · exact (IsNumeral.marked .none (readUnsigned_eq_ok_iff.mp read) :)

theorem parse_of_isNumeral {text : String} (numeral : IsNumeral text.toList address.toNat) :
    parse text = .ok address := by
  generalize characters : text.toList = all at numeral
  obtain ⟨mark, unmarked⟩ := numeral
  have read := readUnsigned_eq_ok_iff.mpr unmarked
  rw [parse, characters]
  cases mark with
  | none =>
      rw [List.nil_append]
      split
      · exact absurd rfl (ne_mark_of_isUnmarked unmarked (by decide) (by decide) _)
      · exact absurd rfl (ne_mark_of_isUnmarked unmarked (by decide) (by decide) _)
      · exact read
  | lower => exact read
  | upper => exact read

theorem parse_eq_ok_iff {text : String} :
    parse text = .ok address ↔ IsNumeral text.toList address.toNat :=
  ⟨isNumeral_of_parse, parse_of_isNumeral⟩

/-! Writing. -/

theorem denotes_append {high low : Nat} (denotes : Denotes digits high) (isDigit : IsDigit char low) :
    Denotes (digits ++ [char]) (16 * high + low) := by
  obtain ⟨values, digitValues, rfl⟩ := denotes
  refine ⟨values ++ [low], List.rel_append digitValues (.cons isDigit .nil), ?_⟩
  rw [List.reverse_append, List.reverse_singleton, List.singleton_append, Nat.ofDigits_cons,
    Nat.add_comm]

theorem isDigit_digitChar (inRange : value < 16) : IsDigit value.digitChar value :=
  ⟨inRange, .inl rfl⟩

theorem denotes_toDigits (number : Nat) : Denotes (Nat.toDigits 16 number) number := by
  induction number using Nat.strongRecOn with
  | ind number induction =>
      rw [Nat.toDigits_eq_if (by decide)]
      by_cases inRange : number < 16
      · rw [if_pos inRange]
        exact ⟨[number], .cons (isDigit_digitChar inRange) .nil, Nat.ofDigits_singleton⟩
      · rw [if_neg inRange]
        have last := isDigit_digitChar (Nat.mod_lt number (by decide : 0 < 16))
        have denotes := denotes_append (induction (number / 16) (by omega)) last
        rwa [Nat.div_add_mod] at denotes

theorem toList_render (address : UInt64) :
    (render address).toList = '0' :: 'x' :: Nat.toDigits 16 address.toNat := by
  simp [render]

theorem isNumeral_render (address : UInt64) :
    IsNumeral (render address).toList address.toNat := by
  have unmarked : IsUnmarked (Nat.toDigits 16 address.toNat) address.toNat :=
    .digits .none Nat.toDigits_ne_nil (denotes_toDigits address.toNat)
  rw [toList_render]
  exact (IsNumeral.marked .lower unmarked :)

end Hexadecimal

end Symbolization
