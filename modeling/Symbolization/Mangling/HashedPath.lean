/-!
# Hashed paths

A hashed path is a mangled name that consists of plain elements, each written behind its length,
of which the last one may be a hash that tells versions of a function apart.  Characters that
linkers do not take stand in the elements as escapes between dollar signs.  A path is printed in full,
however long it is.
-/

namespace Symbolization

/-- The elements of a path and what follows behind the mangled name. -/
structure HashedPath where
  elements : List (List Char)
  suffix : List Char
  deriving DecidableEq, Repr

namespace HashedPath

/-! Reading. -/

def decimal (digits : List Char) : Nat :=
  digits.foldl (fun value digit => 10 * value + (digit.toNat - '0'.toNat)) 0

/-- Reads elements up to the letter that ends them.  Answers them and what follows the letter. -/
def readElements : List Char → Option (List (List Char) × List Char)
  | [] => none
  | 'E' :: rest => some ([], rest)
  | first :: rest =>
    if first.isDigit then
      let length := decimal (first :: rest.takeWhile Char.isDigit)
      let body := rest.dropWhile Char.isDigit
      if length < body.length then
        (readElements (body.drop length)).map fun others =>
          (body.take length :: others.1, others.2)
      else none
    else none
  termination_by chars => chars.length
  decreasing_by
    have shorter := (List.dropWhile_sublist (l := rest) Char.isDigit).length_le
    simp only [List.length_drop, List.length_cons]
    omega

/-- What stands in front of the name of a module from which a function was copied. -/
def copyMark : List Char := ".llvm.".toList

def isModuleChar (char : Char) : Bool :=
  char.isDigit || ('A' ≤ char && char ≤ 'F') || char == '@'

/-- The name without the mark of a copied function, if that is all that follows its first
occurrence. -/
def withoutCopyMark : List Char → List Char
  | [] => []
  | char :: rest =>
    if copyMark.isPrefixOf (char :: rest) then
      if ((char :: rest).drop copyMark.length).all isModuleChar then [] else char :: rest
    else char :: withoutCopyMark rest

/-- Whether a suffix is one that compilers add: nothing, or a dot and printable characters. -/
def isSuffix : List Char → Bool
  | [] => true
  | '.' :: rest => rest.all fun char => '!' ≤ char && char ≤ '~'
  | _ => false

def parse? (name : String) : Option HashedPath :=
  match withoutCopyMark name.toList with
  | '_' :: 'Z' :: 'N' :: inner =>
    if inner.all fun char => char.toNat < 0x80 then
      match readElements inner with
      | some (elements, suffix) => if isSuffix suffix then some ⟨elements, suffix⟩ else none
      | none => none
    else none
  | _ => none

/-! Writing. -/

def hexDigit? (char : Char) : Option Nat :=
  if char.isDigit then some (char.toNat - '0'.toNat)
  else if 'a' ≤ char ∧ char ≤ 'f' then some (char.toNat - 'a'.toNat + 10)
  else none

/-- The character with a code, unless it is a control character. -/
def printable? (code : Nat) : Option Char :=
  let char := Char.ofNat code
  if char.toNat = code ∧ ¬ (code < 0x20 ∨ (0x7f ≤ code ∧ code < 0xa0)) then some char else none

def escaped? : List Char → Option Char
  | ['S', 'P'] => some '@'
  | ['B', 'P'] => some '*'
  | ['R', 'F'] => some '&'
  | ['L', 'T'] => some '<'
  | ['G', 'T'] => some '>'
  | ['L', 'P'] => some '('
  | ['R', 'P'] => some ')'
  | ['C'] => some ','
  | 'u' :: digits =>
    if digits.isEmpty then none
    else do
      let values ← digits.mapM hexDigit?
      printable? (values.foldl (fun code digit => 16 * code + digit) 0)
  | _ => none

/-- The text of an element: two dots separate parts, and escapes stand for characters.  From an
escape that stands for none everything is left as it is. -/
def unescape : List Char → List Char
  | [] => []
  | '.' :: '.' :: rest => ':' :: ':' :: unescape rest
  | '$' :: rest =>
    match _behind : rest.dropWhile (· != '$'), escaped? (rest.takeWhile (· != '$')) with
    | _ :: after, some char => char :: unescape after
    | _, _ => '$' :: rest
  | char :: rest => char :: unescape rest
  termination_by chars => chars.length
  decreasing_by
    · simp only [List.length_cons]
      omega
    · have shorter := (List.dropWhile_sublist (l := rest) (· != '$')).length_le
      rw [_behind] at shorter
      simp only [List.length_cons] at shorter ⊢
      omega
    · simp

/-- The text of an element.  An underscore before an escape at its start does not count. -/
def renderElement : List Char → List Char
  | '_' :: '$' :: rest => unescape ('$' :: rest)
  | element => unescape element

/-- Whether an element is a hash. -/
def isHash : List Char → Bool
  | 'h' :: digits => digits.all fun char => (hexDigit? char.toLower).isSome
  | _ => false

def withoutHash (elements : List (List Char)) : List (List Char) :=
  if elements.getLast?.any isHash then elements.dropLast else elements

def render (path : HashedPath) : String :=
  let parts := (withoutHash path.elements).map fun element => String.ofList (renderElement element)
  String.intercalate "::" parts ++ String.ofList path.suffix

end HashedPath

end Symbolization
