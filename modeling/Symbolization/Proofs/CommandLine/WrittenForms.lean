import Symbolization.CommandLine.Argument
import Symbolization.Proofs.Address.Numerals

/-!
# Written forms of arguments

An address is read from every hexadecimal numeral of it and from nothing else.  An image is read
from its path and its address with an `@` between them: the last one counts, and since no numeral
has one, the path may hold any number of them.  Without an `@` the whole text is the path.
-/

namespace Symbolization

namespace CommandLine

def ImageArgument.text (image : ImageArgument) : String :=
  image.path ++ "@" ++ Hexadecimal.render image.loadAddress

/-- The text is an argument for the image: its path and a numeral of its address, or only its path,
which then has no `@`. -/
inductive ImageArgument.IsWritten : ImageArgument → String → Prop where
  | placed {path numeral : String} {loadAddress : UInt64} :
      Hexadecimal.IsNumeral numeral.toList loadAddress.toNat →
      IsWritten ⟨path, loadAddress⟩ (path ++ "@" ++ numeral)
  | unplaced {path : String} : '@' ∉ path.toList → IsWritten ⟨path, 0⟩ path

variable {text : String} {image : ImageArgument} {address : UInt64}
  {chars front back : List Char}

theorem parseAddress_eq_ok_iff :
    parseAddress text = .ok address ↔ Hexadecimal.IsNumeral text.toList address.toNat := by
  rw [← Hexadecimal.parse_eq_ok_iff, parseAddress]
  cases Hexadecimal.parse text <;> simp [Except.mapError]

/-! The last mark. -/

theorem splitAtLastMark_eq_none_iff : splitAtLastMark chars = none ↔ '@' ∉ chars := by
  induction chars with
  | nil => simp [splitAtLastMark]
  | cons char rest induction =>
      rw [splitAtLastMark]
      cases found : splitAtLastMark rest with
      | none =>
          have noMark := induction.mp found
          by_cases mark : char = '@'
          · simp [mark]
          · simp [mark, Ne.symm mark, noMark]
      | some parts =>
          have mark : '@' ∈ rest := by
            by_contra noMark
            rw [induction.mpr noMark] at found
            contradiction
          simp [mark]

theorem splitAtLastMark_append (noMark : '@' ∉ back) :
    splitAtLastMark (front ++ '@' :: back) = some (front, back) := by
  induction front with
  | nil =>
      rw [List.nil_append, splitAtLastMark, splitAtLastMark_eq_none_iff.mpr noMark]
      rfl
  | cons char front induction =>
      rw [List.cons_append, splitAtLastMark, induction]

theorem eq_of_splitAtLastMark (found : splitAtLastMark chars = some (front, back)) :
    chars = front ++ '@' :: back := by
  induction chars generalizing front with
  | nil => contradiction
  | cons char rest induction =>
      rw [splitAtLastMark] at found
      cases later : splitAtLastMark rest with
      | none =>
          rw [later] at found
          dsimp only at found
          split at found
          · rename_i mark
            cases found
            rw [mark, List.nil_append]
          · contradiction
      | some parts =>
          rw [later] at found
          cases found
          rw [List.cons_append, ← induction later]

theorem not_mem_of_isNumeral {number : Nat} (numeral : Hexadecimal.IsNumeral chars number) :
    '@' ∉ chars := by
  intro mark
  have known := Hexadecimal.mem_or_isSome_digit?_of_isNumeral numeral mark
  exact absurd known (by decide)

/-! Images. -/

theorem parseImage_append {path numeral : String} (noMark : '@' ∉ numeral.toList) :
    parseImage (path ++ "@" ++ numeral) = (parseAddress numeral).map (ImageArgument.mk path) := by
  have characters : (path ++ "@" ++ numeral).toList = path.toList ++ '@' :: numeral.toList := by
    simp
  rw [parseImage, characters, splitAtLastMark_append noMark]
  dsimp only
  rw [String.ofList_toList, String.ofList_toList]

theorem parseImage_of_isWritten (written : image.IsWritten text) :
    parseImage text = .ok image := by
  cases written with
  | placed numeral =>
      rw [parseImage_append (not_mem_of_isNumeral numeral), parseAddress_eq_ok_iff.mpr numeral]
      rfl
  | unplaced noMark =>
      rw [parseImage, splitAtLastMark_eq_none_iff.mpr noMark]

theorem isWritten_of_parseImage (read : parseImage text = .ok image) : image.IsWritten text := by
  cases found : splitAtLastMark text.toList with
  | none =>
      rw [parseImage, found] at read
      cases read
      exact .unplaced (splitAtLastMark_eq_none_iff.mp found)
  | some parts =>
      obtain ⟨front, back⟩ := parts
      have parts : text = String.ofList front ++ "@" ++ String.ofList back := by
        rw [← String.toList_inj, eq_of_splitAtLastMark found]
        simp
      rw [parseImage, found] at read
      dsimp only at read
      cases outcome : parseAddress (String.ofList back) with
      | error error =>
          rw [outcome] at read
          contradiction
      | ok address =>
          rw [outcome] at read
          cases read
          rw [parts]
          exact .placed (parseAddress_eq_ok_iff.mp outcome)

theorem parseImage_eq_ok_iff : parseImage text = .ok image ↔ image.IsWritten text :=
  ⟨isWritten_of_parseImage, parseImage_of_isWritten⟩

theorem isWritten_text (image : ImageArgument) : image.IsWritten image.text :=
  .placed (Hexadecimal.isNumeral_render image.loadAddress)

/-- An address is read from its numerals and from nothing else.  An image is read back from its
written form, whatever characters its path has, and a text without an `@` is a path. -/
theorem written_exact :
    (∀ text address, parseAddress text = .ok address ↔
      Hexadecimal.IsNumeral text.toList address.toNat) ∧
    (∀ image : ImageArgument, parseImage image.text = .ok image) ∧
    ∀ text, '@' ∉ text.toList → parseImage text = .ok ⟨text, 0⟩ :=
  ⟨fun _ _ => parseAddress_eq_ok_iff, fun image => parseImage_eq_ok_iff.mpr (isWritten_text image),
    fun _ noMark => parseImage_eq_ok_iff.mpr (.unplaced noMark)⟩

/-- A signed numeral with needless zeros, an image with marks in its path, and a bare path. -/
theorem written_markedPath :
    parseAddress "0X+00fF" = .ok 0xff ∧
      ImageArgument.text ⟨"/lib@0x2/a@b.so", 0x1000⟩ = "/lib@0x2/a@b.so@0x1000" ∧
      parseImage "/lib@0x2/a@b.so@0x1000" = .ok ⟨"/lib@0x2/a@b.so", 0x1000⟩ ∧
      '@' ∉ "./app".toList ∧ parseImage "./app" = .ok ⟨"./app", 0⟩ := by
  obtain ⟨addresses, images, paths⟩ := written_exact
  have denotes : Hexadecimal.Denotes "00fF".toList 0xff :=
    ⟨[0, 0, 15, 15], by simp [Hexadecimal.IsDigit]; decide, by decide⟩
  have numeral : Hexadecimal.IsNumeral "0X+00fF".toList 0xff :=
    (Hexadecimal.IsNumeral.marked .upper (.digits .plus (by decide) denotes) :)
  have written : ImageArgument.text ⟨"/lib@0x2/a@b.so", 0x1000⟩ = "/lib@0x2/a@b.so@0x1000" := by
    decide
  have noMark : '@' ∉ "./app".toList := by decide
  refine ⟨(addresses _ _).mpr numeral, written, ?_, noMark, paths _ noMark⟩
  rw [← written]
  exact images _

end CommandLine

end Symbolization
