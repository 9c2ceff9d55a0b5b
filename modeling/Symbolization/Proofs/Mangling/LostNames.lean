import Mathlib.Data.List.TakeWhile
import Symbolization.Mangling.Demangle

/-!
# Names that demangling loses

The text of a path is empty where the path has no element, or just an empty one, or just a hash, and
nothing follows behind it.  No other name that is not empty is shown as an empty text.
-/

namespace Symbolization

namespace HashedPath

variable {chars inner suffix element hash : List Char} {elements others : List (List Char)}
  {path : HashedPath} {name : String}

/-! When nothing is written. -/

@[simp] theorem unescape_eq_nil_iff : unescape chars = [] ↔ chars = [] := by
  fun_cases unescape chars <;> simp [*]

@[simp] theorem renderElement_eq_nil_iff : renderElement element = [] ↔ element = [] := by
  fun_cases renderElement element <;> simp

/-- Elements with colons between them are not lost, even if each of them is empty. -/
theorem render_eq_empty_iff :
    path.render = "" ↔
      path.suffix = [] ∧ (withoutHash path.elements = [] ∨ withoutHash path.elements = [[]]) := by
  rw [render, String.append_eq_empty_iff, String.ofList_eq_empty_iff, and_comm]
  refine and_congr_right fun _ => ?_
  cases withoutHash path.elements with
  | nil => simp
  | cons element others =>
    cases others with
    | nil => simp
    | cons other others => simp [String.intercalate_cons_cons]

/-! Elements that were read. -/

theorem readElements_eq_some_nil_iff :
    readElements chars = some ([], suffix) ↔ chars = 'E' :: suffix := by
  fun_cases readElements chars <;> simp_all

/-- An element stands behind its length, which ends where it starts. -/
theorem readElements_eq_some_cons_iff :
    readElements chars = some (element :: others, suffix) ↔
      ∃ length after, chars = length ++ (element ++ after) ∧ length ≠ [] ∧
        (∀ char ∈ length, char.isDigit) ∧ (∀ char ∈ (element ++ after).head?, ¬ char.isDigit) ∧
        decimal length = element.length ∧ readElements after = some (others, suffix) := by
  constructor
  · fun_cases readElements chars
    case case3 first rest notEnd digit length body fits =>
      intro read
      obtain ⟨⟨laterElements, laterSuffix⟩, later, same⟩ := Option.map_eq_some_iff.mp read
      cases same
      refine ⟨first :: rest.takeWhile Char.isDigit, body.drop length, ?_, List.cons_ne_nil _ _,
        ?_, ?_, ?_, later⟩
      · rw [List.take_append_drop, List.cons_append, List.takeWhile_append_dropWhile]
      · simpa [digit] using fun char => List.mem_takeWhile_imp
      · intro char starts
        have notDigit := List.head?_dropWhile_not Char.isDigit rest
        rw [List.take_append_drop] at starts
        rw [starts] at notDigit
        simp [notDigit]
      · rw [List.length_take_of_le (Nat.le_of_lt fits)]
    case case1 | case2 | case4 | case5 => simp
  · rintro ⟨length, after, rfl, notEmpty, digits, ends, long, later⟩
    obtain ⟨first, more, rfl⟩ := List.exists_cons_of_ne_nil notEmpty
    have notEnd : first = 'E' → False := by rintro rfl; simp at digits
    have lasts : after ≠ [] := by rintro rfl; simp [readElements] at later
    obtain ⟨start, body, starts⟩ :=
      List.exists_cons_of_ne_nil (List.append_ne_nil_of_right_ne_nil element lasts)
    have notDigit : ¬ start.isDigit := ends start (by rw [starts]; rfl)
    have moreDigits (char : Char) (isMore : char ∈ more) : char.isDigit :=
      digits char (List.mem_cons_of_mem _ isMore)
    have taken : (more ++ (element ++ after)).takeWhile Char.isDigit = more := by
      rw [List.takeWhile_append_of_pos moreDigits, starts, List.takeWhile_cons_of_neg notDigit,
        List.append_nil]
    have left : (more ++ (element ++ after)).dropWhile Char.isDigit = element ++ after := by
      rw [List.dropWhile_append_of_pos moreDigits, starts, List.dropWhile_cons_of_neg notDigit]
    have fits : element.length < (element ++ after).length := by
      rw [List.length_append]
      exact Nat.lt_add_of_pos_right (List.length_pos_iff.mpr lasts)
    rw [List.cons_append, readElements, if_pos (digits first List.mem_cons_self), taken, left, long,
      if_pos fits]
    · simp [later]
    · exact notEnd

/-- Only the last element can be empty, since the digits of two lengths would be read as one. -/
theorem ne_nil_of_readElements {other : List Char}
    (read : readElements chars = some (element :: other :: others, suffix)) : element ≠ [] := by
  rintro rfl
  obtain ⟨_, after, -, -, -, ends, -, later⟩ := readElements_eq_some_cons_iff.mp read
  obtain ⟨length, behind, rfl, notEmpty, digits, -⟩ := readElements_eq_some_cons_iff.mp later
  obtain ⟨first, more, rfl⟩ := List.exists_cons_of_ne_nil notEmpty
  exact ends first rfl (digits first List.mem_cons_self)

/-! Elements of which none is left. -/

theorem withoutHash_cons_cons {other : List Char} :
    withoutHash (element :: other :: others) = element :: withoutHash (other :: others) := by
  simp only [withoutHash, List.getLast?_cons_cons, List.dropLast_cons_cons]
  split <;> rfl

theorem withoutHash_singleton_blank_iff :
    withoutHash [element] = [] ∨ withoutHash [element] = [[]] ↔ element = [] ∨ isHash element := by
  by_cases hashed : isHash element <;> simp [withoutHash, hashed]

/-- The name of a path of which nothing is left: it has at most one element, and that one is empty
or a hash. -/
def IsBlank (chars : List Char) : Prop :=
  ∃ length element, chars = '_' :: 'Z' :: 'N' :: (length ++ (element ++ ['E'])) ∧
    (∀ char ∈ length, char.isDigit) ∧ decimal length = element.length ∧
    (element = [] ∨ isHash element)

theorem exists_readElements_blank_iff :
    (∃ elements, readElements inner = some (elements, []) ∧
        (withoutHash elements = [] ∨ withoutHash elements = [[]])) ↔
      IsBlank ('_' :: 'Z' :: 'N' :: inner) := by
  simp only [IsBlank, List.cons.injEq, true_and]
  constructor
  · rintro ⟨elements, read, blank⟩
    match elements with
    | [] =>
      exact ⟨[], [], readElements_eq_some_nil_iff.mp read, nofun, rfl, .inl rfl⟩
    | [element] =>
      obtain ⟨length, after, rfl, -, digits, -, long, later⟩ :=
        readElements_eq_some_cons_iff.mp read
      cases readElements_eq_some_nil_iff.mp later
      exact ⟨length, element, rfl, digits, long, withoutHash_singleton_blank_iff.mp blank⟩
    | element :: other :: others =>
      have notEmpty := ne_nil_of_readElements read
      simp [withoutHash_cons_cons, notEmpty] at blank
  · rintro ⟨length, element, rfl, digits, long, blank⟩
    by_cases numbered : length = []
    · subst numbered
      cases List.eq_nil_of_length_eq_zero long.symm
      exact ⟨[], readElements_eq_some_nil_iff.mpr rfl, .inl rfl⟩
    · refine ⟨[element], ?_, withoutHash_singleton_blank_iff.mpr blank⟩
      refine readElements_eq_some_cons_iff.mpr ⟨length, ['E'], rfl, numbered, digits, ?_, long,
        readElements_eq_some_nil_iff.mpr rfl⟩
      rcases blank with rfl | hashed
      · simp
      · obtain ⟨digits, rfl⟩ : ∃ digits, element = 'h' :: digits := by
          fun_cases isHash element <;> simp_all [isHash]
        simp

/-! Names of which nothing is left. -/

theorem withoutCopyMark_prefix (chars : List Char) : withoutCopyMark chars <+: chars := by
  fun_induction withoutCopyMark chars with
  | case1 => exact List.prefix_rfl
  | case2 => exact List.nil_prefix
  | case3 => exact List.prefix_rfl
  | case4 char rest _ induction => exact (List.prefix_cons_inj char).mpr induction

theorem parse?_eq_some_iff :
    parse? name = some path ↔
      ∃ inner, withoutCopyMark name.toList = '_' :: 'Z' :: 'N' :: inner ∧
        (∀ char ∈ inner, char.toNat < 0x80) ∧
        readElements inner = some (path.elements, path.suffix) ∧ isSuffix path.suffix := by
  constructor
  · intro parsed
    unfold parse? at parsed
    split at parsed
    case h_1 inner rest =>
      obtain ⟨ascii, parsed⟩ := Option.ite_none_right_eq_some.mp parsed
      split at parsed
      case h_1 elements suffix read =>
        obtain ⟨allowed, same⟩ := Option.ite_none_right_eq_some.mp parsed
        cases same
        exact ⟨inner, rest, by simpa using ascii, read, allowed⟩
      case h_2 => cases parsed
    case h_2 => cases parsed
  · rintro ⟨inner, rest, ascii, read, allowed⟩
    simpa [parse?, rest, read, allowed] using ascii

theorem toNat_lt_of_isDigit {char : Char} (digit : char.isDigit) : char.toNat < 0x80 :=
  Nat.lt_of_le_of_lt (Char.isDigit_iff_toNat.mp digit).2 (by decide)

theorem toNat_lt_of_isSome_hexDigit? {char : Char} (digit : (hexDigit? char).isSome) :
    char.toNat < 0x80 := by
  fun_cases hexDigit? char with
  | case1 decimal => exact toNat_lt_of_isDigit decimal
  | case2 _ letter => exact Nat.lt_of_le_of_lt (UInt32.le_iff_toNat_le.mp letter.2) (by decide)
  | case3 => simp_all [hexDigit?]

theorem toNat_lt_of_isHash (hashed : isHash element) : ∀ char ∈ element, char.toNat < 0x80 := by
  fun_cases isHash element with
  | case1 digits =>
    have lowered : ∀ char ∈ digits, (hexDigit? char.toLower).isSome := by
      simpa [isHash] using hashed
    refine List.forall_mem_cons.mpr ⟨by decide, fun char isDigit => ?_⟩
    have digit := lowered char isDigit
    by_cases upper : char.val ≥ 'A'.val ∧ char.val ≤ 'Z'.val
    · exact Nat.lt_of_le_of_lt (UInt32.le_iff_toNat_le.mp upper.2) (by decide)
    · have same : char.toLower = char := dif_neg upper
      rw [same] at digit
      exact toNat_lt_of_isSome_hexDigit? digit
  | case2 => simp_all [isHash]

theorem exists_parse?_blank_iff :
    (∃ path, parse? name = some path ∧ path.render = "") ↔
      IsBlank (withoutCopyMark name.toList) := by
  simp only [parse?_eq_some_iff, render_eq_empty_iff]
  constructor
  · rintro ⟨⟨elements, suffix⟩, ⟨inner, rest, -, read, -⟩, ⟨rfl, blank⟩⟩
    rw [rest]
    exact exists_readElements_blank_iff.mp ⟨elements, read, blank⟩
  · intro blank
    obtain ⟨length, element, rest, digits, long, lost⟩ := id blank
    rw [rest] at blank
    obtain ⟨elements, read, none⟩ := exists_readElements_blank_iff.mpr blank
    refine ⟨⟨elements, []⟩, ⟨_, rest, ?_, read, rfl⟩, ⟨rfl, none⟩⟩
    have lengthAscii (char : Char) (isLength : char ∈ length) : char.toNat < 0x80 :=
      toNat_lt_of_isDigit (digits char isLength)
    have elementAscii : ∀ char ∈ element, char.toNat < 0x80 := by
      rcases lost with rfl | hashed
      · exact nofun
      · exact toNat_lt_of_isHash hashed
    have lastAscii : ∀ char ∈ ['E'], char.toNat < 0x80 := List.forall_mem_singleton.mpr (by decide)
    exact List.forall_mem_append.mpr
      ⟨lengthAscii, List.forall_mem_append.mpr ⟨elementAscii, lastAscii⟩⟩

end HashedPath

namespace Mangling

variable {name : String}

open HashedPath

theorem demangle_of_path {path : HashedPath} (parsed : HashedPath.parse? name = some path) :
    demangle name = path.render := by
  obtain ⟨inner, rest, -⟩ := parse?_eq_some_iff.mp parsed
  obtain ⟨behind, whole⟩ := rest ▸ withoutCopyMark_prefix name.toList
  have same : name = "_ZN" ++ String.ofList (inner ++ behind) := by
    rw [← String.toList_inj, ← whole]
    simp
  have long : ¬ name.utf8ByteSize < 3 := by
    rw [same, String.utf8ByteSize_append]
    exact Nat.not_lt.mpr (Nat.le_add_right 3 _)
  have marked : "_Z".toList.isPrefixOf name.toList := by
    rw [← whole]
    rfl
  rw [demangle, if_neg (not_or.mpr ⟨long, not_not.mpr marked⟩), parsed]

/-- A declaration is shown only if there is something to show. -/
theorem demangle_of_noPath (unparsed : HashedPath.parse? name = none) :
    demangle name = name ∨
      ∃ text, text ≠ "" ∧ (MangledName.parse? name).bind MangledName.text? = some text ∧
        demangle name = text := by
  rw [demangle, unparsed]
  split
  case isTrue => exact .inl rfl
  case isFalse =>
    cases declared : declaration? name with
    | none => exact .inl rfl
    | some text =>
      obtain ⟨found, nonempty⟩ := Option.filter_eq_some_iff.mp declared
      exact .inr ⟨text, by simpa using nonempty, found, rfl⟩

theorem demangle_eq_empty_iff :
    demangle name = "" ↔ name = "" ∨ IsBlank (withoutCopyMark name.toList) := by
  constructor
  · intro lost
    cases parsed : HashedPath.parse? name with
    | some path =>
      rw [demangle_of_path parsed] at lost
      exact .inr (exists_parse?_blank_iff.mp ⟨path, parsed, lost⟩)
    | none =>
      rcases demangle_of_noPath parsed with same | ⟨text, nonempty, -, shown⟩
      · exact .inl (same.symm.trans lost)
      · exact absurd (shown.symm.trans lost) nonempty
  · rintro (rfl | blank)
    · rfl
    · obtain ⟨path, parsed, nothing⟩ := exists_parse?_blank_iff.mpr blank
      rw [demangle_of_path parsed, nothing]

/-- A name without the mark and a name that no grammar takes stay as they are, a declaration always
shows something, and of a path everything is lost just where it is blank. -/
structure LosesOnlyBlank (name : String) : Prop where
  unmarked : ¬ "_Z".toList <+: name.toList → demangle name = name
  rejected : HashedPath.parse? name = none →
    (MangledName.parse? name).bind MangledName.text? = none → demangle name = name
  declared : HashedPath.parse? name = none → name ≠ "" → demangle name ≠ ""
  lost_iff : demangle name = "" ↔ name = "" ∨ IsBlank (withoutCopyMark name.toList)

theorem losesOnlyBlank (name : String) : LosesOnlyBlank name where
  unmarked unmarked := by
    rw [demangle, if_pos (.inr (by simpa using unmarked))]
  rejected noPath noDeclaration := by
    rcases demangle_of_noPath noPath with same | ⟨text, -, found, -⟩
    · exact same
    · rw [noDeclaration] at found
      cases found
  declared noPath nonempty := by
    rcases demangle_of_noPath noPath with same | ⟨text, shows, -, shown⟩
    · rwa [same]
    · rwa [shown]
  lost_iff := demangle_eq_empty_iff

theorem demangle_hashOnly :
    "_ZN17h0123456789abcdefE" ≠ "" ∧ demangle "_ZN17h0123456789abcdefE" = "" := by
  refine ⟨by decide, demangle_eq_empty_iff.mpr (.inr ?_)⟩
  have digits : ∀ char ∈ "17".toList, char.isDigit := List.all_eq_true.mp (by decide)
  exact ⟨"17".toList, "h0123456789abcdef".toList, by decide, digits, by decide, .inr (by decide)⟩

end Mangling

end Symbolization
