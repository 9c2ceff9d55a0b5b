import Symbolization.Mangling.Parser

/-!
# Grammar of mangled names

The productions of mangled names.  Each takes the number of levels that are left for it, of which
it needs one for itself.  `MangledName.parse?` reads a whole text.  Left out are expressions,
`decltype`, vector and complex types, and the qualifiers of vendors: a name with one of them does not
match, so it counts as not mangled.
-/

namespace Symbolization

namespace Mangling

namespace ScopeUse

/-- The scope itself, unless it is an abbreviation or another component. -/
def scope? : ScopeUse → Option Scope
  | .component (.scope scope) | .final scope => some scope
  | .wellKnown _ | .component _ => none

end ScopeUse

namespace UnqualifiedName

def within (name : UnqualifiedName) : Option ScopeUse → Scope
  | none => .top name
  | some scope => .nested scope name

end UnqualifiedName

namespace Parser

def startsName (char : Char) : Bool := char.isDigit || "acdeglimnopqrsvCDLU".toList.contains char

mutual

def mangledName : Nat → Parser MangledName
  | 0 => tooDeep
  | depth + 1 => do
    if ← acceptOne ["_Z", "__Z"] then
      let entity ← encoding depth
      return .entity entity (← many (clone depth))
    if ← acceptOne ["___Z", "____Z"] then
      let function ← encoding depth
      expect "_block_invoke"
      blockNumber
      return .block function
    if ← accept "_GLOBAL_" then return ← globalCalls depth
    return .type (← typeUse depth)

/-- The function that calls what runs before or after all else. -/
def globalCalls : Nat → Parser MangledName
  | 0 => tooDeep
  | depth + 1 => do
    unless "_.$".toList.contains (← anyChar) do mismatch
    match ← anyChar with
    | 'I' =>
      expect "_"
      return .globalConstructors (← mangledName depth)
    | 'D' =>
      expect "_"
      return .globalDestructors (← mangledName depth)
    | _ => mismatch

/-- A function with its types, an object, or something that the compiler made. -/
def encoding : Nat → Parser Encoding
  | 0 => tooDeep
  | depth + 1 => do
    if let some entity ← attempt (name depth) then
      match ← attempt (types depth) with
      | some types => return .function entity types
      | none => return .object entity
    return .special (← specialName depth)

def types : Nat → Parser (List TypeUse)
  | 0 => tooDeep
  | depth + 1 => many1 (typeUse depth)

def name : Nat → Parser Name
  | 0 => tooDeep
  | depth + 1 => do
    if let some nested ← attempt (nestedName depth) then return .nested nested
    if let some plain ← attempt (unscopedName depth) then
      unless ← nextIs 'I' do return .unscoped plain
      remember (.templateName plain)
      return .template (.component (.templateName plain)) (← templateArgs depth)
    if let some template ← attempt (templateUse depth) then
      return .template template (← templateArgs depth)
    localName depth

def unscopedName : Nat → Parser UnscopedName
  | 0 => tooDeep
  | depth + 1 => do
    if ← accept "St" then return .standard (← unqualifiedName depth)
    return .plain (← unqualifiedName depth)

def templateUse : Nat → Parser TemplateUse
  | 0 => tooDeep
  | depth + 1 => do
    if let some plain ← attempt (unscopedName depth) then
      remember (.templateName plain)
      return .component (.templateName plain)
    reference depth TemplateUse.wellKnown TemplateUse.component

/-- The name of an entity inside of namespaces and classes. -/
def nestedName : Nat → Parser NestedName
  | 0 => tooDeep
  | depth + 1 => do
    expect "N"
    let object ← objectUse depth
    let whole ← scopeUse depth
    expect "E"
    match whole.scope? with
    | some (.top inner) => return .mk object (.top inner)
    | some (.nested scope inner) => return .mk object (.nested scope inner)
    | some (.template scope args) => return .mk object (.template scope args)
    | _ => mismatch

def scopeUse : Nat → Parser ScopeUse
  | 0 => tooDeep
  | depth + 1 => iterate (scopeStep depth) none

/-- A further part of a scope, or its end. -/
def scopeStep : Nat → Option ScopeUse → Parser (Option ScopeUse ⊕ ScopeUse)
  | 0, _ => tooDeep
  | depth + 1, current => do
    let char := (← get).rest.head?.getD 'E'
    match char, current with
    | 'E', none => mismatch
    | 'E', some scope => return .inr scope
    | 'S', _ => return .inl (← reference depth ScopeUse.wellKnown ScopeUse.component)
    | 'T', _ => return .inl (← rememberScope (.templateParam (← templateParam depth)))
    | 'I', some scope =>
      let args ← templateArgs depth
      return .inl (← rememberScope (.template scope args))
    | _, some scope =>
      if char.isDigit then
        let member ← sourceName depth
        if ← nextIs 'M' then
          let inner ← rememberScope (.dataMember scope member)
          expect "M"
          return .inl inner
        else
          let marks ← tags depth
          return .inl (← rememberScope (.nested scope (.mk (.source member) marks)))
      else if startsName char then
        let inner ← unqualifiedName depth
        return .inl (← rememberScope (inner.within current))
      else return .inr scope
    | _, none =>
      let inner ← unqualifiedName depth
      return .inl (← rememberScope (inner.within current))

/-- A name without its surroundings, with the tags of its version. -/
def unqualifiedName : Nat → Parser UnqualifiedName
  | 0 => tooDeep
  | depth + 1 => do
    let base ←
      if let some operator ← attempt (operatorName depth) then pure operator
      else if let some constructor ← attempt (constructorName depth) then pure constructor
      else if ← accept "L" then internalName depth
      else if let some text ← attempt (sourceName depth) then pure (.source text)
      else if let some closure ← attempt (closureName depth) then pure closure
      else unnamedType depth
    return .mk base (← tags depth)

def operatorName : Nat → Parser BaseName
  | 0 => tooDeep
  | depth + 1 => do
    descend depth 1
    if let some operator ← attempt (word operators) then return .operator operator
    if ← accept "cv" then return .conversion (← conversionType (typeUse depth))
    if ← accept "li" then return .literalOperator (← sourceName depth)
    expect "v"
    let arity ← anyChar
    unless arity.isDigit do mismatch
    return .vendorOperator (arity.toNat - '0'.toNat) (← sourceName depth)

def constructorName : Nat → Parser BaseName
  | 0 => tooDeep
  | depth + 1 => do
    match ← anyChar with
    | 'C' =>
      let inherits ← accept "I"
      unless "1234".toList.contains (← anyChar) do mismatch
      if inherits then return .constructor false (some (← typeUse depth))
      return .constructor false none
    | 'D' =>
      unless "0124".toList.contains (← anyChar) do mismatch
      return .constructor true none
    | _ => mismatch

def closureName : Nat → Parser BaseName
  | 0 => tooDeep
  | depth + 1 => do
    expect "Ul"
    let params ← closureParams depth
    expect "E"
    let index ← attempt (number 10)
    expect "_"
    return .closure params index

def closureParams : Nat → Parser (List TypeUse)
  | 0 => tooDeep
  | depth + 1 => do
    if ← accept "v" then return []
    many1 (typeUse depth)

def typeUse : Nat → Parser TypeUse
  | 0 => tooDeep
  | depth + 1 => do
    if let some basic ← attempt (basicType depth) then return basic
    if ← nextIs 'U' then mismatch
    if ← nextIsOneOf ['r', 'V', 'K'] then
      if let some function ← attempt (functionType depth) then return ← rememberType function
      let own ← qualifiers depth
      return ← rememberType (.qualified own (← typeUse depth))
    if let some named ← attempt (namedType depth) then return ← rememberType named
    if let some known ← attempt (finished (reference depth .wellKnown .component)) then
      return known
    if let some function ← attempt (functionType depth) then return ← rememberType function
    if let some array ← attempt (arrayType depth) then return ← rememberType array
    if let some member ← attempt (memberType depth) then return ← rememberType member
    if let some index ← attempt (lastParam (templateParam depth) (templateArgs depth)) then
      return ← rememberType (.templateParam index)
    if let some template ← attempt (paramTemplate depth) then
      return ← rememberType (.template template (← templateArgs depth))
    if ← accept "P" then return ← rememberType (.pointer (← typeUse depth))
    if ← accept "R" then return ← rememberType (.lvalueRef (← typeUse depth))
    if ← accept "O" then return ← rememberType (.rvalueRef (← typeUse depth))
    expect "Dp"
    rememberType (.expansion (← typeUse depth))

def namedType : Nat → Parser CompoundType
  | 0 => tooDeep
  | depth + 1 => do
    if let some plain ← attempt (name depth) then return .named none plain
    expect "T"
    match ← anyChar with
    | 's' => return .named (some .struct) (← name depth)
    | 'u' => return .named (some .union) (← name depth)
    | 'e' => return .named (some .enum) (← name depth)
    | _ => mismatch

def functionType : Nat → Parser CompoundType
  | 0 => tooDeep
  | depth + 1 => do
    let own ← qualifiers depth
    let neverThrows ← accept "Do"
    let _ ← accept "Dx"
    expect "F"
    let _ ← accept "Y"
    let types ← types depth
    let ref ← attempt (refQualifier depth)
    expect "E"
    return .function (.mk own neverThrows ref types)

def arrayType : Nat → Parser CompoundType
  | 0 => tooDeep
  | depth + 1 => do
    expect "A"
    let dimension ← attempt (number 10)
    expect "_"
    return .array dimension (← typeUse depth)

def memberType : Nat → Parser CompoundType
  | 0 => tooDeep
  | depth + 1 => do
    expect "M"
    let owner ← typeUse depth
    return .member owner (← typeUse depth)

def paramTemplate : Nat → Parser TemplateUse
  | 0 => tooDeep
  | depth + 1 => do
    if let some known ← attempt (reference depth .wellKnown .component) then return known
    let index ← templateParam depth
    remember (.templateParam index)
    return .component (.templateParam index)

def templateArgs : Nat → Parser TemplateArgs
  | 0 => tooDeep
  | depth + 1 => do
    expect "I"
    let args ← many1 (templateArg depth)
    expect "E"
    return .mk (← newPlace) args

def templateArg : Nat → Parser TemplateArg
  | 0 => tooDeep
  | depth + 1 => do
    if let some value ← attempt (literal depth) then return value
    if let some type ← attempt (typeUse depth) then return .type type
    unless ← accept "J" do expect "I"
    let args ← many (templateArg depth)
    expect "E"
    return .pack args

def literal : Nat → Parser TemplateArg
  | 0 => tooDeep
  | depth + 1 => do
    expect "L"
    if let some type ← attempt (typeUse depth) then
      let digits ← takeWhile (· != 'E')
      expect "E"
      return .literal type digits
    let entity ← mangledName depth
    expect "E"
    return .external entity

def localName : Nat → Parser Name
  | 0 => tooDeep
  | depth + 1 => do
    expect "Z"
    let function ← encoding depth
    expect "E"
    if ← accept "s" then
      let _ ← attempt (discriminator depth)
      return .local function .stringLiteral
    if ← accept "d" then
      let _ ← attempt signedNumber
      expect "_"
      return .local function (.inDefaultArgument (← name depth))
    let entity ← name depth
    let _ ← attempt (discriminator depth)
    return .local function (.inBody entity)

def specialName : Nat → Parser SpecialName
  | 0 => tooDeep
  | depth + 1 => do
    match ← anyChar, ← anyChar with
    | 'T', 'V' => return .virtualTable (← typeUse depth)
    | 'T', 'T' => return .virtualTableTable (← typeUse depth)
    | 'T', 'I' => return .typeInfo (← typeUse depth)
    | 'T', 'S' => return .typeInfoName (← typeUse depth)
    | 'T', 'F' => return .typeInfoFunction (← typeUse depth)
    | 'T', 'H' => return .threadInit (← name depth)
    | 'T', 'W' => return .threadWrapper (← name depth)
    | 'T', 'h' => return .thunk (← fixedOffset depth) (← encoding depth)
    | 'T', 'v' => return .thunk (← virtualOffset depth) (← encoding depth)
    | 'T', 'c' =>
      let this ← callOffset depth
      let result ← callOffset depth
      return .covariantThunk this result (← encoding depth)
    | 'T', 'C' =>
      let first ← typeUse depth
      let _ ← number 10
      expect "_"
      return .constructionTable first (← typeUse depth)
    | 'G', 'V' => return .guard (← name depth)
    | 'G', 'R' =>
      let entity ← name depth
      let index ← attempt (number 36)
      expect "_"
      return .guardTemporary entity (index.elim 0 (· + 1))
    | 'G', 'T' =>
      match ← anyChar with
      | 'n' => return .nonTransactionClone (← encoding depth)
      | _ => return .transactionClone (← encoding depth)
    | 'G', 'r' => return .resource (← resourcePath depth)
    | _, _ => mismatch

end

/-- How deeply productions may nest. -/
def maxDepth : Nat := 95

end Parser

namespace MangledName

def parse? (text : String) : Option MangledName :=
  match (Parser.mangledName Parser.maxDepth) (.start text.toList) with
  | (.ok name, state) => if state.rest.isEmpty then some name else none
  | (.error _, _) => none

end MangledName

end Mangling

end Symbolization
