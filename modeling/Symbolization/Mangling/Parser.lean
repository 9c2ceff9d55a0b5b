import Symbolization.Mangling.Syntax

/-!
# Parsing mangled names

A parser takes a value from the characters that are left, or does not match.  An alternative that
does not match gives its characters back, but components that it met can still be referred to.
Productions that nest too deeply end the parsing as a whole.
-/

namespace Symbolization

namespace Mangling

inductive Fault where
  /-- The characters do not fit, so another alternative may be tried. -/
  | mismatch
  /-- Productions nest too deeply. -/
  | tooDeep
  deriving DecidableEq, Repr

/-- What is left of a mangled name, and what was met so far. -/
structure ParserState where
  rest : List Char
  /-- The components that may be referred to. -/
  components : Array Component
  /-- How many lists of template arguments were met. -/
  argLists : Nat
  /-- Whether the type of a conversion is being parsed. -/
  inConversion : Bool

namespace ParserState

def start (chars : List Char) : ParserState := ⟨chars, #[], 0, false⟩

end ParserState

abbrev Parser := ExceptT Fault (StateM ParserState)

namespace Parser

variable {α β : Type}

def mismatch : Parser α := throw .mismatch

def tooDeep : Parser α := throw .tooDeep

/-- Fails unless `levels` further levels of productions may be entered. -/
def descend (depth levels : Nat) : Parser Unit := if depth < levels then tooDeep else pure ()

/-- The value that a parser takes, if it matches.  Otherwise its characters are given back. -/
def attempt (parser : Parser α) : Parser (Option α) := fun state =>
  match parser state with
  | (.ok value, next) => (.ok (some value), next)
  | (.error .mismatch, next) =>
    (.ok none, { next with rest := state.rest, inConversion := state.inConversion })
  | (.error .tooDeep, next) => (.error .tooDeep, next)

/-- The value that a parser would take, if it matches.  Nothing is taken. -/
def lookAhead (parser : Parser α) : Parser (Option α) := fun state =>
  match parser state with
  | (.ok value, _) => (.ok (some value), state)
  | (.error .mismatch, _) => (.ok none, state)
  | (.error .tooDeep, _) => (.error .tooDeep, state)

/-- Repeats a step that answers with the state of the next one or with a result.  A step that takes
no character does not match. -/
def iterate (step : α → Parser (α ⊕ β)) (current : α) : Parser β := fun state =>
  match _ : step current state with
  | (.ok (.inr result), next) => (.ok result, next)
  | (.ok (.inl later), next) =>
    if next.rest.length < state.rest.length then iterate step later next
    else (.error .mismatch, next)
  | (.error fault, next) => (.error fault, next)
  termination_by state => state.rest.length

def manyStep (parser : Parser α) (values : List α) : Parser (List α ⊕ List α) := do
  if (← get).rest.isEmpty then return .inr values.reverse
  match ← attempt parser with
  | some value => return .inl (value :: values)
  | none => return .inr values.reverse

def many (parser : Parser α) : Parser (List α) := iterate (manyStep parser) []

def many1 (parser : Parser α) : Parser (List α) := do
  let value ← parser
  let values ← many parser
  return value :: values

/-! Characters. -/

def nextIs (char : Char) : Parser Bool := return (← get).rest.head? == some char

def nextIsOneOf (chars : List Char) : Parser Bool := return (← get).rest.head?.any chars.contains

/-- Takes a text if it comes next, and tells whether it does. -/
def accept (text : String) : Parser Bool := do
  let state ← get
  if text.toList.isPrefixOf state.rest then
    set { state with rest := state.rest.drop text.length }
    return true
  else return false

/-- Takes the first of several texts that comes next, and tells whether one does. -/
def acceptOne (texts : List String) : Parser Bool := do
  let rest := (← get).rest
  match texts.find? fun text => text.toList.isPrefixOf rest with
  | some text => accept text
  | none => return false

def expect (text : String) : Parser Unit := do
  unless ← accept text do mismatch

def anyChar : Parser Char := do
  let state ← get
  match state.rest with
  | [] => mismatch
  | char :: rest =>
    set { state with rest := rest }
    return char

/-- Takes the characters up to the first one that fails a test. -/
def takeWhile (test : Char → Bool) : Parser (List Char) :=
  modifyGet fun state =>
    (state.rest.takeWhile test, { state with rest := state.rest.dropWhile test })

def take (count : Nat) : Parser (List Char) := do
  let state ← get
  if state.rest.length < count then mismatch
  set { state with rest := state.rest.drop count }
  return state.rest.take count

def word (words : List Word) : Parser Word := do
  let state ← get
  match Word.read? words state.rest with
  | none => mismatch
  | some (found, rest) =>
    set { state with rest := rest }
    return found

/-! Numbers and identifiers. -/

/-- The value of a digit in a base.  Letters that are digits are upper-case. -/
def digitValue? (base : Nat) (char : Char) : Option Nat :=
  let value :=
    if char.isDigit then char.toNat - '0'.toNat
    else if char.isUpper then char.toNat - 'A'.toNat + 10
    else base
  if value < base then some value else none

/-- A number in a base, below 2^63 and without a needless zero in front of it. -/
def number (base : Nat) : Parser Nat := do
  let digits ← takeWhile fun char => (digitValue? base char).isSome
  let value := (digits.filterMap (digitValue? base)).foldl (fun sum digit => base * sum + digit) 0
  if digits.isEmpty ∨ (1 < digits.length ∧ digits.head? = some '0') ∨ 0x8000000000000000 ≤ value then mismatch
  return value

/-- A decimal number, negative behind the letter that stands for the sign. -/
def signedNumber : Parser Int := do
  if ← accept "n" then return -(← number 10)
  return ← number 10

def isIdentifierChar (char : Char) : Bool :=
  char.isAlphanum || char == '$' || char == '_' || char == '.'

def sourceName (depth : Nat) : Parser String := do
  descend depth 1
  let length ← number 10
  if length = 0 then mismatch
  let chars ← take length
  descend depth 2
  unless chars.all isIdentifierChar do mismatch
  return String.ofList chars

/-- The mark of a copy of a function: what the copy is for, and numbers. -/
def clone (depth : Nat) : Parser (String × List Nat) := do
  descend depth 1
  expect "."
  descend depth 2
  let name ← takeWhile fun char => isIdentifierChar char && char != '.'
  if name.isEmpty then mismatch
  let numbers ← many do
    expect "."
    number 10
  return (String.ofList name, numbers)

/-! Parts that hold no other ones. -/

/-- The qualifiers of a type or of a function, of which there may be none. -/
def qualifiers (depth : Nat) : Parser Qualifiers := do
  descend depth 1
  let isRestrict ← accept "r"
  let isVolatile ← accept "V"
  let isConst ← accept "K"
  return ⟨isRestrict, isVolatile, isConst⟩

def refQualifier (depth : Nat) : Parser RefQualifier := do
  descend depth 1
  match ← anyChar with
  | 'R' => return .lvalue
  | 'O' => return .rvalue
  | _ => mismatch

def objectUse (depth : Nat) : Parser ObjectUse := do
  if ← accept "H" then return .explicit
  let own ← qualifiers depth
  return .implicit own (← attempt (refQualifier depth))

/-- The number of a block in its function, which need not be there.  It is not shown. -/
def blockNumber : Parser Unit := do
  if ← acceptOne ["_", "."] then
    let _ ← number 10
  else
    let _ ← attempt (number 10)

/-- Which one of several entities of one name in a function is meant: a digit, or a longer number
between marks.  It is not shown. -/
def discriminator (depth : Nat) : Parser Unit := do
  descend depth 1
  expect "_"
  if ← accept "_" then
    descend depth 2
    if (← number 10) < 10 then mismatch
    expect "_"
  else
    unless (← anyChar).isDigit do mismatch

def internalName (depth : Nat) : Parser BaseName := do
  let text ← sourceName depth
  let _ ← attempt (discriminator depth)
  return .source text

def unnamedType (depth : Nat) : Parser BaseName := do
  descend depth 1
  expect "Ut"
  let index ← attempt (number 10)
  expect "_"
  return .unnamedType index

def typeOfWidth : Parser Word := do
  expect "D"
  let kind ← anyChar
  let width ← number 10
  match kind, ← anyChar with
  | 'F', '_' => return floatOfWidth width
  | 'F', 'x' => return extendedFloatOfWidth width
  | 'B', '_' => return signedOfWidth width
  | 'U', '_' => return unsignedOfWidth width
  | _, _ => mismatch

def basicType (depth : Nat) : Parser TypeUse := do
  descend depth 2
  if let some basic ← attempt (word (basicTypes ++ fixedPointTypes)) then return .basic basic
  if let some basic ← attempt typeOfWidth then return .basic basic
  expect "u"
  return .extended (← sourceName (depth - 1))

/-- The characters with the numbers that the bytes of a text in UTF-8 have. -/
def bytesAsChars (chars : List Char) : List Char :=
  (String.ofList chars).toUTF8.toList.map fun byte => Char.ofNat byte.toNat

/-- A part of the path of a resource, with the character that its last code stands for. -/
def resourcePart (depth : Nat) : Parser (List Char) := do
  descend depth 1
  let chars ← takeWhile (· != '$')
  if chars.isEmpty then mismatch
  let part := bytesAsChars chars
  unless ← accept "$" do return part
  match ← anyChar with
  | 'S' => return part ++ ['/']
  | '_' => return part ++ ['.']
  | '$' => return part ++ ['$']
  | _ => mismatch

/-- The path of a resource behind its length, which is not checked. -/
def resourcePath (depth : Nat) : Parser String := do
  let _ ← signedNumber
  expect "_"
  let parts ← many (resourcePart depth)
  return String.ofList parts.flatten

def tag (depth : Nat) : Parser String := do
  descend depth 1
  expect "B"
  sourceName (depth - 1)

def tags (depth : Nat) : Parser (List String) := do
  descend depth 1
  many (tag (depth - 1))

def fixedOffset (depth : Nat) : Parser CallOffset := do
  descend depth 3
  let offset ← signedNumber
  expect "_"
  return .fixed offset

def virtualOffset (depth : Nat) : Parser CallOffset := do
  descend depth 3
  let base ← signedNumber
  expect "_"
  let call ← signedNumber
  expect "_"
  return .virtual base call

def callOffset (depth : Nat) : Parser CallOffset := do
  match ← anyChar with
  | 'h' => fixedOffset depth
  | 'v' => virtualOffset depth
  | _ => mismatch

def templateParam (depth : Nat) : Parser Nat := do
  descend depth 1
  expect "T"
  let index ← attempt (number 10)
  expect "_"
  return index.elim 0 (· + 1)

def conversionType (parser : Parser α) : Parser α := do
  let state ← get
  set { state with inConversion := true }
  let value ← parser
  modify fun next => { next with inConversion := state.inConversion }
  return value

/-- Takes a value behind which no template arguments follow. -/
def finished (parser : Parser α) : Parser α := do
  let value ← parser
  if ← nextIs 'I' then mismatch
  return value

/-- Takes a template parameter that is a type.  It is none if template arguments follow, except
for those that belong to a conversion as a whole: there a second list shows that the first one
belongs to the type. -/
def lastParam (param : Parser Nat) (args : Parser β) : Parser Nat := do
  let index ← param
  unless ← nextIs 'I' do return index
  unless (← get).inConversion do mismatch
  match ← lookAhead (do let _ ← args; nextIs 'I') with
  | some false => return index
  | _ => mismatch

/-- The place of the next list of template arguments. -/
def newPlace : Parser Nat :=
  modifyGet fun state => (state.argLists, { state with argLists := state.argLists + 1 })

/-! Components. -/

def remember (component : Component) : Parser Unit :=
  modify fun state => { state with components := state.components.push component }

def rememberType (type : CompoundType) : Parser TypeUse := do
  remember (.type type)
  return .component (.type type)

/-- Takes note of a scope, unless the nested name that it belongs to ends here. -/
def rememberScope (scope : Scope) : Parser ScopeUse := do
  if ← nextIs 'E' then return .final scope
  remember (.scope scope)
  return .component (.scope scope)

def reference (depth : Nat) (ofKnown : WellKnown → α) (ofComponent : Component → α) :
    Parser α := do
  descend depth 2
  expect "S"
  let state ← get
  match state.rest.head?.bind WellKnown.ofCode? with
  | some part =>
    let _ ← anyChar
    return ofKnown part
  | none =>
    let index ← attempt (number 36)
    match state.components[index.elim 0 (· + 1)]? with
    | none => mismatch
    | some component =>
      expect "_"
      return ofComponent component

end Parser

end Mangling

end Symbolization
