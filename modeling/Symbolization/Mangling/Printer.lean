import Symbolization.Mangling.Syntax

/-!
# Printing mangled names

A printer writes a part of a declaration, or gives up.  What encloses a type stands on both sides
of it: the parts of the declarator wait until the innermost type is written, and are then written
from the inside to the outside.
-/

namespace Symbolization

namespace Mangling

/-- A part of a declarator that waits for the type that it belongs to. -/
inductive Declarator where
  | pointer
  | lvalueRef
  | rvalueRef
  | qualifiers (qualifiers : Qualifiers) (ofArray : Bool)
  | array (dimension : Option Nat)
  | member (owner : TypeUse)
  | function (qualifiers : Qualifiers) (ref : Option RefQualifier)
  | params (types : List TypeUse)
  /-- The parameters of the function that the whole declaration is about. -/
  | signature (name : Name) (types : List TypeUse)

/-- What a list of template arguments or a class gives to the parts inside of it. -/
inductive Binding where
  | className (name : ClassName)
  /-- Arguments, and which argument of which list is being written if they enclose one. -/
  | args (args : TemplateArgs) (current : Option (Nat × Nat))

/-- The bindings of the surroundings, the closest one first. -/
abbrev Bindings := List Binding

namespace Bindings

/-- The argument that a template parameter stands for.  An argument may not refer to itself or to
one behind it. -/
def arg? (bindings : Bindings) (index : Nat) : Option TemplateArg :=
  match bindings with
  | [] => none
  | .className _ :: outer => arg? outer index
  | .args (.mk place args) current :: outer =>
    match args[index]? with
    | none => arg? outer index
    | some arg =>
      if current.any fun inner => inner.2 = place ∧ inner.1 ≤ index then none else some arg

def className? (bindings : Bindings) : Option ClassName :=
  bindings.findSome? fun
    | .className name => some name
    | .args _ _ => none

def inArg (bindings : Bindings) (index place : Nat) : Bindings :=
  match bindings with
  | .args args _ :: outer => .args args (some (index, place)) :: outer
  | _ => bindings

end Bindings

/-- A part of a declarator that waits.  Its number tells it from the others. -/
structure Waiting where
  number : Nat
  part : Declarator

structure PrinterState where
  /-- The characters that were written, the latest one first. -/
  written : List Char
  /-- The parts of declarators that wait, the innermost one first. -/
  pending : List Waiting
  /-- How many parts of declarators have had to wait. -/
  waited : Nat
  /-- The identifier that was written last. -/
  lastIdentifier : Option String
  /-- Whether parameters of a closure are being written. -/
  inClosure : Bool
  /-- Whether a pack of arguments was written. -/
  packSeen : Bool
  /-- Whether the next parameter is the object that a member function is called on. -/
  objectNext : Bool

namespace PrinterState

def start : PrinterState := ⟨[], [], 0, none, false, false, false⟩

end PrinterState

abbrev Printer := StateT PrinterState Option

namespace Printer

/-- Gives up unless `levels` further levels of parts may be entered. -/
def descend (depth levels : Nat) : Printer Unit := if depth < levels then failure else pure ()

/-! Text. -/

def write (text : String) : Printer Unit :=
  modify fun state => { state with written := text.toList.reverse ++ state.written }

def last? : Printer (Option Char) := return (← get).written.head?

/-- Writes a blank unless one was written just now. -/
def ensureSpace : Printer Unit := do
  unless (← last?) = some ' ' do write " "

/-- Writes the mark of a parameter that is the object of the function, if it is one. -/
def markObject : Printer Unit := do
  if (← get).objectNext then
    write "this "
    modify fun state => { state with objectNext := false }

def writeWord (word : String) : Printer Unit := do
  ensureSpace
  write word

def separated : List (Printer Unit) → Printer Unit
  | [] => pure ()
  | [part] => part
  | part :: parts => do
    part
    write ", "
    separated parts

def qualifiers (own : Qualifiers) : Printer Unit := do
  if own.isConst then writeWord "const"
  if own.isVolatile then writeWord "volatile"
  if own.isRestrict then writeWord "restrict"

def refQualifier : Option RefQualifier → Printer Unit
  | none => pure ()
  | some .lvalue => writeWord "&"
  | some .rvalue => writeWord "&&"

/-- What compilers put in front of the number of a namespace without a name. -/
def globalMark : List Char := "_GLOBAL_".toList

/-- Whether an identifier is that of a namespace without a name. -/
def isAnonymous (identifier : String) : Bool :=
  match identifier.toList.splitAt globalMark.length with
  | (front, mark :: 'N' :: _) => front == globalMark && (mark == '_' || mark == '.' || mark == '$')
  | _ => false

def identifier (text : String) : Printer Unit := do
  if isAnonymous text then write "(anonymous namespace)"
  else
    modify fun state => { state with lastIdentifier := some text }
    write text

def unnamedText (number : Option Nat) : String :=
  "\x7bunnamed type#" ++ toString (number.elim 1 (· + 1)) ++ "\x7d"

/-- Writes the digits of a value.  A letter in front of them stands for the sign. -/
def digits (chars : List Char) : Printer Unit :=
  match chars with
  | 'n' :: rest => write ("-" ++ String.ofList rest)
  | _ => write (String.ofList chars)

def bracketedDigits (chars : List Char) : Printer Unit :=
  match chars with
  | 'n' :: rest => write ("-[" ++ String.ofList rest ++ "]")
  | _ => write ("[" ++ String.ofList chars ++ "]")

def offsetText : CallOffset → String
  | .fixed offset => "\x7boffset(" ++ toString offset ++ ")\x7d"
  | .virtual base call =>
    "\x7bvirtual offset(" ++ toString base ++ ", " ++ toString call ++ ")\x7d"

def cloneText (clone : String × List Nat) : String :=
  " [clone ." ++ clone.1 ++ String.join (clone.2.map fun number => "." ++ toString number) ++ "]"

/-! Declarators that wait. -/

def pop? : Printer (Option Waiting) := do
  let state ← get
  match state.pending with
  | [] => return none
  | first :: rest =>
    set { state with pending := rest }
    return some first

/-- Takes the parts that wait one after the other, at most `count` of them. -/
def popEach {α : Type} (count : Nat) (step : Waiting → Printer α) : Printer (List α) :=
  match count with
  | 0 => return []
  | count + 1 => do
    match ← pop? with
    | none => return []
    | some part =>
      let value ← step part
      let values ← popEach count step
      return value :: values

/-- Takes all the parts that wait one after the other.  Every step may take some itself. -/
def popAll {α : Type} (step : Waiting → Printer α) : Printer (List α) := do
  popEach (← get).pending.length step

/-- Writes a part while nothing waits.  What waited before waits again afterwards. -/
def apart (part : Printer Unit) : Printer Unit := do
  let before := (← get).pending
  modify fun state => { state with pending := [] }
  part
  modify fun state => { state with pending := before }

/-- Writes a type while a part of its declarator waits.  If that part is then the innermost one
still, it is written behind the type. -/
def enclosed (part : Declarator) (type : Printer Unit) (behind : Declarator → Printer Unit) :
    Printer Unit := do
  let number := (← get).waited
  modify fun state =>
    { state with pending := ⟨number, part⟩ :: state.pending, waited := number + 1 }
  type
  let state ← get
  match state.pending with
  | [] => pure ()
  | first :: rest =>
    if first.number = number then
      set { state with pending := rest }
      behind part

/-- Drops references that wait up to the first other part.  A reference to a reference is one
reference. -/
def dropReferences : Printer Unit :=
  modify fun state =>
    { state with pending := state.pending.dropWhile fun waiting =>
        match waiting.part with
        | .lvalueRef | .rvalueRef => true
        | _ => false }

/-- Drops temporary references that wait up to the first other part. -/
def dropTemporaryReferences : Printer Unit :=
  modify fun state =>
    { state with pending := state.pending.dropWhile fun waiting =>
        match waiting.part with
        | .rvalueRef => true
        | _ => false }

/-- Whether a lasting reference waits first. -/
def lvalueRefWaits : Printer Bool := do
  match (← get).pending.head?.map Waiting.part with
  | some .lvalueRef => return true
  | _ => return false

/-- Whether the parts that wait need parentheses before parameters, and whether these are set off
by a blank in any case. -/
def parentheses? : List Declarator → Option Bool
  | [] => none
  | .qualifiers _ _ :: _ | .member _ :: _ => some true
  | .pointer :: _ | .lvalueRef :: _ | .rvalueRef :: _ => some false
  | _ :: outer => parentheses? outer

/-- Opens parentheses before parameters if the parts that wait need some. -/
def openParentheses : Printer Bool := do
  match parentheses? ((← get).pending.map Waiting.part) with
  | none => return false
  | some isSetOff =>
    let last ← last?
    if isSetOff ∨ (last ≠ some '(' ∧ last ≠ some '*') then ensureSpace
    write "("
    return true

end Printer

namespace Declarator

/-- Whether a part is written behind the parameters only. -/
def followsParams : Declarator → Bool
  | .function own _ => own ≠ .none
  | _ => false

end Declarator

namespace Component

def isArray : Component → Bool
  | .type (.array _ _) => true
  | _ => false

end Component

namespace TypeUse

def isVoid : TypeUse → Bool
  | .basic word => word.code == "v"
  | _ => false

def isArray : TypeUse → Bool
  | .component target => target.isArray
  | _ => false

end TypeUse

namespace TemplateUse

def asType : TemplateUse → TypeUse
  | .wellKnown part => .wellKnown part
  | .component target => .component target

end TemplateUse

namespace ScopeUse

def asType : ScopeUse → TypeUse
  | .wellKnown part => .wellKnown part
  | .component target => .component target
  | .final scope => .component (.scope scope)

end ScopeUse

namespace Printer

/-- Writes parameters behind the parts of the declarator that wait.  The qualifiers of a function
go on waiting. -/
def parameters (waiting : Declarator → Printer Unit) (type : TypeUse → Printer Unit)
    (types : List TypeUse) : Printer Unit := do
  let isOpen ← openParentheses
  let later ← popAll fun outer => do
    if outer.part.followsParams then return some outer
    waiting outer.part
    return none
  modify fun state => { state with pending := later.filterMap id }
  if isOpen then write ")"
  write "("
  unless types.all TypeUse.isVoid && types.length ≤ 1 do
    markObject
    separated (types.map type)
  write ")"

mutual

def mangledName : Nat → Bindings → MangledName → Printer Unit
  | 0, _, _ => failure
  | depth + 1, scope, .entity entity clones => do
    encoding depth scope entity
    write (String.join (clones.map cloneText))
  | depth + 1, scope, .block function => do
    write "invocation function for block in "
    encoding depth scope function
  | depth + 1, scope, .globalConstructors name =>
    globalCalls depth scope "global constructors keyed to " name
  | depth + 1, scope, .globalDestructors name =>
    globalCalls depth scope "global destructors keyed to " name
  | depth + 1, scope, .type type => typeUse depth scope type

/-- Writes the function that calls what runs before or after all else. -/
def globalCalls : Nat → Bindings → String → MangledName → Printer Unit
  | 0, _, _, _ => failure
  | depth + 1, scope, kind, name => apart do
    write kind
    mangledName depth scope name

/-- Writes a function with its parameters, an object, or something that the compiler made.  The
type of its result is known for functions with template arguments. -/
def encoding : Nat → Bindings → Encoding → Printer Unit
  | 0, _, _ => failure
  | depth + 1, scope, .function entity types => apart do
    let scope := (entity.className?.map Binding.className).toList ++ scope
    let args := entity.templateArgs?
    let scope := (args.map (Binding.args · none)).toList ++ scope
    if args.isSome ∧ ¬ entity.hasNoResult then
      if let some result := types.head? then typeUse depth scope result
      write " "
    enclosed (.signature entity types) (name depth scope entity) (declarator depth scope)
  | depth + 1, scope, .object entity => apart (name depth scope entity)
  | depth + 1, scope, .special entity => apart (specialName depth scope entity)

def specialName : Nat → Bindings → SpecialName → Printer Unit
  | 0, _, _ => failure
  | depth + 1, scope, .virtualTable type => do
    write "\x7bvtable("
    typeUse depth scope type
    write ")\x7d"
  | depth + 1, scope, .virtualTableTable type => do
    write "\x7bvtt("
    typeUse depth scope type
    write ")\x7d"
  | depth + 1, scope, .typeInfo type => do
    write "typeinfo for "
    typeUse depth scope type
  | depth + 1, scope, .typeInfoName type => do
    write "typeinfo name for "
    typeUse depth scope type
  | depth + 1, scope, .typeInfoFunction type => do
    write "typeinfo fn for "
    typeUse depth scope type
  | depth + 1, scope, .thunk offset target => do
    write ("\x7bvirtual override thunk(" ++ offsetText offset ++ ", ")
    encoding depth scope target
    write ")\x7d"
  | depth + 1, scope, .covariantThunk this result target => do
    write ("\x7bvirtual override thunk(" ++ offsetText this ++ ", " ++ offsetText result ++ ", ")
    encoding depth scope target
    write ")\x7d"
  | depth + 1, scope, .guard entity => do
    write "guard variable for "
    name depth scope entity
  | depth + 1, scope, .guardTemporary entity number => do
    write ("reference temporary #" ++ toString number ++ " for ")
    name depth scope entity
  | depth + 1, scope, .constructionTable first second => do
    write "construction vtable for "
    typeUse depth scope first
    write "-in-"
    typeUse depth scope second
  | depth + 1, scope, .threadInit entity => do
    write "TLS init function for "
    name depth scope entity
  | depth + 1, scope, .threadWrapper entity => do
    write "TLS wrapper function for "
    name depth scope entity
  | depth + 1, scope, .transactionClone target => do
    write "transaction clone for "
    encoding depth scope target
  | depth + 1, scope, .nonTransactionClone target => do
    write "non-transaction clone for "
    encoding depth scope target
  | depth + 1, _, .resource path => do
    descend depth 1
    write ("java resource " ++ path)

def name : Nat → Bindings → Name → Printer Unit
  | 0, _, _ => failure
  | depth + 1, scope, .nested entity => nestedName depth scope entity
  | depth + 1, scope, .unscoped entity => unscopedName depth scope entity
  | depth + 1, scope, .template template args => do
    typeUse depth (.args args none :: scope) template.asType
    templateArgs depth scope args
  | depth + 1, scope, .local function entity => localName depth scope function entity

/-- Writes the name of something inside of a function.  What is inside of a default argument is
not told apart from the function. -/
def localName : Nat → Bindings → Encoding → LocalEntity → Printer Unit
  | 0, _, _, _ => failure
  | depth + 1, scope, function, .inBody entity => do
    encoding depth scope function
    write "::"
    name depth scope entity
  | depth + 1, scope, function, .inDefaultArgument _ => encoding depth scope function
  | depth + 1, scope, function, .stringLiteral => do
    encoding depth scope function
    write "::string literal"

/-- Writes the name of an entity inside of namespaces and classes.  Its parameters come before the
qualifiers of a member function. -/
def nestedName : Nat → Bindings → NestedName → Printer Unit
  | 0, _, _ => failure
  | depth + 1, scope, .mk object whole => do
    match whole with
    | .top inner => unqualifiedName depth scope inner
    | .nested outer inner =>
      typeUse depth scope outer.asType
      write "::"
      unqualifiedName depth scope inner
    | _ => typeUse depth scope (.component (.scope whole))
    if let some waiting ← pop? then
      modify fun state => { state with objectNext := object = .explicit }
      declarator depth scope waiting.part
      modify fun state => { state with objectNext := false }
    match object with
    | .implicit own ref =>
      qualifiers own
      refQualifier ref
    | .explicit => pure ()

def unscopedName : Nat → Bindings → UnscopedName → Printer Unit
  | 0, _, _ => failure
  | depth + 1, scope, .plain entity => unqualifiedName depth scope entity
  | depth + 1, scope, .standard entity => do
    write "std::"
    unqualifiedName depth scope entity

def unqualifiedName : Nat → Bindings → UnqualifiedName → Printer Unit
  | 0, _, _ => failure
  | depth + 1, scope, .mk base tags => do
    baseName depth scope base
    unless tags.isEmpty do descend depth 4
    for tag in tags do
      write "[abi:"
      identifier tag
      write "]"

def baseName : Nat → Bindings → BaseName → Printer Unit
  | 0, _, _ => failure
  | depth + 1, _, .source text => do
    descend depth 1
    identifier text
  | depth + 1, _, .operator word => do
    descend depth 1
    write "operator"
    if storageOperators.contains word.code then ensureSpace
    write word.text
  | depth + 1, scope, .conversion type => do
    write "operator"
    ensureSpace
    typeUse depth ((type.templateArgs?.map (Binding.args · none)).toList ++ scope) type
  | depth + 1, _, .literalOperator text => do
    descend depth 2
    write "operator"
    identifier text
    write "::operator \"\""
  | depth + 1, _, .vendorOperator arity text => do
    descend depth 2
    write "operator"
    identifier text
    write ("::operator " ++ toString arity)
  | depth + 1, scope, .constructor isDestructor inherited => do
    match scope.className? with
    | none => failure
    | some own =>
      if isDestructor then write "~"
      match inherited with
      | none => className depth own
      | some type =>
        match type.className? with
        | none => failure
        | some other => className depth other
  | _ + 1, _, .unnamedType number => write (unnamedText number)
  | depth + 1, scope, .closure params number => closure depth scope params number

def closure : Nat → Bindings → List TypeUse → Option Nat → Printer Unit
  | 0, _, _, _ => failure
  | depth + 1, scope, params, number => do
    write "\x7blambda("
    modify fun state => { state with inClosure := true }
    separated (params.map (typeUse depth scope))
    modify fun state => { state with inClosure := false }
    write (")#" ++ toString (number.elim 1 (· + 2)) ++ "\x7d")

/-- Writes the name of a class as that of its constructors.  Those of a class without a name bear
the identifier that was written last. -/
def className : Nat → ClassName → Printer Unit
  | 0, _ => failure
  | depth + 1, .source text => do
    descend depth 1
    identifier text
  | _ + 1, .wellKnown text => write text
  | _ + 1, .unnamedType number => do
    match (← get).lastIdentifier with
    | some text => identifier text
    | none => write (unnamedText number)
  | depth + 1, .closure params number => closure depth [] params number

def typeUse : Nat → Bindings → TypeUse → Printer Unit
  | 0, _, _ => failure
  | depth + 1, _, .basic word => do
    descend depth 1
    write word.text
  | depth + 1, _, .extended text => do
    descend depth 2
    identifier text
  | _ + 1, _, .wellKnown part => write part.text
  | depth + 1, scope, .component (.templateName template) => unscopedName depth scope template
  | depth + 1, scope, .component (.templateParam index) => templateParam depth scope index
  | depth + 1, scope, .component (.scope part) =>
    match part with
    | .top inner => unqualifiedName depth scope inner
    | .nested outer inner => do
      typeUse depth scope outer.asType
      write "::"
      unqualifiedName depth scope inner
    | .template outer args => do
      typeUse depth scope outer.asType
      templateArgs depth scope args
    | .templateParam index => templateParam depth scope index
    | .dataMember outer member => do
      typeUse depth scope outer.asType
      write "::"
      identifier member
  | depth + 1, scope, .component (.type compound) =>
    match compound with
    | .named elaboration entity => namedType depth scope elaboration entity
    | .function type => functionType depth scope type
    | .array dimension element => arrayType depth scope dimension element
    | .member owner type => memberType depth scope owner type
    | .templateParam index => templateParam depth scope index
    | .template template args => do
      typeUse depth scope template.asType
      templateArgs depth scope args
    | .qualified own type =>
      enclosed (.qualifiers own type.isArray) (typeUse depth scope type) (declarator depth scope)
    | .pointer type => enclosed .pointer (typeUse depth scope type) (declarator depth scope)
    | .lvalueRef type => enclosed .lvalueRef (typeUse depth scope type) (declarator depth scope)
    | .rvalueRef type => enclosed .rvalueRef (typeUse depth scope type) (declarator depth scope)
    | .expansion type => do
      typeUse depth scope type
      unless (← get).packSeen do write "..."

def namedType : Nat → Bindings → Option Elaboration → Name → Printer Unit
  | 0, _, _, _ => failure
  | depth + 1, scope, elaboration, entity => do
    match elaboration with
    | none => pure ()
    | some .struct => write "struct "
    | some .union => write "union "
    | some .enum => write "enum "
    name depth scope entity

def functionType : Nat → Bindings → FunctionType → Printer Unit
  | 0, _, _ => failure
  | depth + 1, scope, .mk own neverThrows ref types => do
    enclosed (.function own ref) (plainFunctionType depth scope types) (declarator depth scope)
    if neverThrows then writeWord "noexcept"

def plainFunctionType : Nat → Bindings → List TypeUse → Printer Unit
  | 0, _, _ => failure
  | _ + 1, _, [] => failure
  | depth + 1, scope, result :: types =>
    enclosed (.params types) (typeUse depth scope result) fun part => do
      ensureSpace
      declarator depth scope part

def arrayType : Nat → Bindings → Option Nat → TypeUse → Printer Unit
  | 0, _, _, _ => failure
  | depth + 1, scope, dimension, element =>
    enclosed (.array dimension) (typeUse depth scope element) (declarator depth scope)

def memberType : Nat → Bindings → TypeUse → TypeUse → Printer Unit
  | 0, _, _, _ => failure
  | depth + 1, scope, owner, type =>
    enclosed (.member owner) (typeUse depth scope type) (declarator depth scope)

/-- Writes what a template parameter stands for.  Parameters of closures stand for themselves. -/
def templateParam : Nat → Bindings → Nat → Printer Unit
  | 0, _, _ => failure
  | depth + 1, scope, index => do
    if (← get).inClosure then write ("auto:" ++ toString (index + 1))
    else
      match scope.arg? index with
      | none => failure
      | some arg => templateArg depth scope arg

/-- Writes the arguments of a template.  Brackets that would touch are set apart. -/
def templateArgs : Nat → Bindings → TemplateArgs → Printer Unit
  | 0, _, _ => failure
  | depth + 1, scope, .mk place args => apart do
    if (← last?) = some '<' then write " "
    write "<"
    separated (args.mapIdx fun index arg => templateArg depth (scope.inArg index place) arg)
    if (← last?) = some '>' then write " "
    write ">"

def templateArg : Nat → Bindings → TemplateArg → Printer Unit
  | 0, _, _ => failure
  | depth + 1, scope, .type type => typeUse depth scope type
  | depth + 1, scope, .literal type value => literal depth scope type value
  | depth + 1, scope, .external entity => external depth scope entity
  | depth + 1, scope, .pack args => do
    modify fun state => { state with packSeen := true }
    separated (args.map (templateArg depth scope))

def external : Nat → Bindings → MangledName → Printer Unit
  | 0, _, _ => failure
  | depth + 1, scope, entity => mangledName depth scope entity

/-- Writes a value.  Its type stands in front of it unless the value shows it. -/
def literal : Nat → Bindings → TypeUse → List Char → Printer Unit
  | 0, _, _, _ => failure
  | depth + 1, scope, type, value => do
    match type with
    | .basic word =>
      match word.code, value with
      | "b", ['0'] => write "false"
      | "b", ['1'] => write "true"
      | "Dn", _ => write "nullptr"
      | "b", _ | "i", _ => digits value
      | code, _ =>
        write ("(" ++ word.text ++ ")")
        if code = "f" ∨ code = "d" then bracketedDigits value else digits value
    | _ =>
      write "("
      typeUse depth scope type
      write ")"
      digits value

/-- Writes a part of a declarator behind the type that it belongs to. -/
def declarator : Nat → Bindings → Declarator → Printer Unit
  | 0, _, _ => failure
  | _ + 1, _, .pointer => write "*"
  | _ + 1, _, .lvalueRef => do
    dropReferences
    write "&"
  | _ + 1, _, .rvalueRef => do
    dropTemporaryReferences
    unless ← lvalueRefWaits do write "&&"
  | depth + 1, _, .qualifiers own _ => do
    descend depth 1
    qualifiers own
  | depth + 1, scope, .array dimension => do
    let direct ← popAll fun waiting => do
      match waiting.part with
      | .array _ =>
        declarator depth scope waiting.part
        return true
      | .qualifiers _ true =>
        declarator depth scope waiting.part
        return false
      | .qualifiers _ false =>
        ensureSpace
        declarator depth scope waiting.part
        ensureSpace
        write "("
        let _ ← popAll fun outer => declarator depth scope outer.part
        write ")"
        return false
      | _ =>
        ensureSpace
        write "("
        declarator depth scope waiting.part
        let _ ← popAll fun outer => declarator depth scope outer.part
        write ")"
        return false
    unless direct.contains true do ensureSpace
    write ("[" ++ (dimension.map toString).getD "" ++ "]")
  | depth + 1, scope, .member owner => do
    unless (← last?) = some '(' do ensureSpace
    typeUse depth scope owner
    write "::*"
  | depth + 1, _, .function own ref => do
    if own ≠ .none ∨ ref.isSome then descend depth 1
    qualifiers own
    refQualifier ref
  | depth + 1, scope, .params types => params depth scope types
  | depth + 1, scope, .signature entity types =>
    match entity.templateArgs? with
    | none => parameters (declarator depth scope) (typeUse depth scope) types
    | some args =>
      let scope := .args args none :: scope
      parameters (declarator depth scope) (typeUse depth scope) types.tail

def params : Nat → Bindings → List TypeUse → Printer Unit
  | 0, _, _ => failure
  | depth + 1, scope, types => parameters (declarator depth scope) (typeUse depth scope) types

end

/-- How deeply parts may nest. -/
def maxDepth : Nat := 127

end Printer

namespace MangledName

def text? (name : MangledName) : Option String :=
  ((Printer.mangledName Printer.maxDepth [] name).run .start).map fun result =>
    String.ofList result.2.written.reverse

end MangledName

end Mangling

end Symbolization
