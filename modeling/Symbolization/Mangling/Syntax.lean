import Symbolization.Mangling.Vocabulary

/-!
# Syntax of mangled names

What a mangled name says about a function, an object or a table of the compiler.  Types and
prefixes that were written before may be referred to instead of being written again: such a
component stands here in full wherever it is used.
-/

namespace Symbolization

namespace Mangling

structure Qualifiers where
  isRestrict : Bool
  isVolatile : Bool
  isConst : Bool
  deriving DecidableEq, Repr

namespace Qualifiers

def none : Qualifiers := ⟨false, false, false⟩

end Qualifiers

/-- Whether a member function is for lasting or for temporary objects. -/
inductive RefQualifier where
  | lvalue
  | rvalue
  deriving DecidableEq, Repr

/-- What is known about the object that a member function is called on: which objects it is for, or
that the first parameter is the object. -/
inductive ObjectUse where
  | implicit (qualifiers : Qualifiers) (ref : Option RefQualifier)
  | explicit
  deriving DecidableEq, Repr

/-- By how much a thunk moves the object that it is called on. -/
inductive CallOffset where
  | fixed (offset : Int)
  | virtual (base call : Int)
  deriving DecidableEq, Repr

inductive Elaboration where
  | struct
  | union
  | enum
  deriving DecidableEq, Repr

mutual

/-- A type where it is used.  Basic types and abbreviations are no components. -/
inductive TypeUse where
  | basic (word : Word)
  | extended (name : String)
  | wellKnown (part : WellKnown)
  | component (component : Component)

/-- What may be referred to again. -/
inductive Component where
  | type (type : CompoundType)
  | scope (scope : Scope)
  | templateName (name : UnscopedName)
  | templateParam (index : Nat)

inductive CompoundType where
  | named (elaboration : Option Elaboration) (name : Name)
  | function (type : FunctionType)
  | array (dimension : Option Nat) (element : TypeUse)
  | member (owner type : TypeUse)
  | templateParam (index : Nat)
  | template (name : TemplateUse) (args : TemplateArgs)
  | qualified (qualifiers : Qualifiers) (type : TypeUse)
  | pointer (type : TypeUse)
  | lvalueRef (type : TypeUse)
  | rvalueRef (type : TypeUse)
  | expansion (type : TypeUse)

/-- The type of a function.  The first of `types` is the type of its result. -/
inductive FunctionType where
  | mk (qualifiers : Qualifiers) (neverThrows : Bool) (ref : Option RefQualifier)
    (types : List TypeUse)

/-- The template of a type or of a function, where it is used. -/
inductive TemplateUse where
  | wellKnown (part : WellKnown)
  | component (component : Component)

/-- The arguments of a template.  `place` tells them from other ones of the same name. -/
inductive TemplateArgs where
  | mk (place : Nat) (args : List TemplateArg)

inductive TemplateArg where
  | type (type : TypeUse)
  | literal (type : TypeUse) (digits : List Char)
  | external (name : MangledName)
  | pack (args : List TemplateArg)

inductive ScopeUse where
  | wellKnown (part : WellKnown)
  | component (component : Component)
  /-- The whole of a nested name, to which nothing can refer. -/
  | final (scope : Scope)

inductive Scope where
  | top (name : UnqualifiedName)
  | nested (scope : ScopeUse) (name : UnqualifiedName)
  | template (scope : ScopeUse) (args : TemplateArgs)
  | templateParam (index : Nat)
  | dataMember (scope : ScopeUse) (name : String)

/-- A name without its surroundings, with the tags of its version. -/
inductive UnqualifiedName where
  | mk (base : BaseName) (tags : List String)

inductive BaseName where
  | source (name : String)
  | operator (word : Word)
  | conversion (type : TypeUse)
  | literalOperator (name : String)
  | vendorOperator (arity : Nat) (name : String)
  /-- A constructor or a destructor, possibly one that is inherited from a class. -/
  | constructor (isDestructor : Bool) (inherited : Option TypeUse)
  | unnamedType (number : Option Nat)
  | closure (params : List TypeUse) (number : Option Nat)

inductive UnscopedName where
  | plain (name : UnqualifiedName)
  | standard (name : UnqualifiedName)

inductive Name where
  | nested (name : NestedName)
  | unscoped (name : UnscopedName)
  | template (name : TemplateUse) (args : TemplateArgs)
  /-- Something inside of a function. -/
  | local (function : Encoding) (entity : LocalEntity)

inductive LocalEntity where
  | inBody (name : Name)
  | inDefaultArgument (name : Name)
  | stringLiteral

/-- The name of an entity inside of namespaces and classes. -/
inductive NestedName where
  | mk (object : ObjectUse) (scope : Scope)

/-- A function with its types, an object, or something that the compiler made. -/
inductive Encoding where
  | function (name : Name) (types : List TypeUse)
  | object (name : Name)
  | special (name : SpecialName)

inductive SpecialName where
  | virtualTable (type : TypeUse)
  | virtualTableTable (type : TypeUse)
  | typeInfo (type : TypeUse)
  | typeInfoName (type : TypeUse)
  | typeInfoFunction (type : TypeUse)
  | thunk (offset : CallOffset) (target : Encoding)
  | covariantThunk (this result : CallOffset) (target : Encoding)
  | guard (name : Name)
  | guardTemporary (name : Name) (number : Nat)
  | constructionTable (first second : TypeUse)
  | threadInit (name : Name)
  | threadWrapper (name : Name)
  | transactionClone (target : Encoding)
  | nonTransactionClone (target : Encoding)
  | resource (path : String)

inductive MangledName where
  /-- An entity with the marks of copies that the compiler made of a function. -/
  | entity (encoding : Encoding) (clones : List (String × List Nat))
  /-- The function that calls a block inside of another one. -/
  | block (function : Encoding)
  | globalConstructors (name : MangledName)
  | globalDestructors (name : MangledName)
  | type (type : TypeUse)

end

/-- The last class name of a scope, which its constructors bear. -/
inductive ClassName where
  | source (name : String)
  | wellKnown (text : String)
  | unnamedType (number : Option Nat)
  | closure (params : List TypeUse) (number : Option Nat)

namespace BaseName

def className? : BaseName → Option ClassName
  | .source name => some (.source name)
  | .unnamedType number => some (.unnamedType number)
  | .closure params number => some (.closure params number)
  | _ => none

/-- Whether functions of this name have no type of their result written. -/
def hasNoResult : BaseName → Bool
  | .constructor _ _ | .conversion _ => true
  | _ => false

end BaseName

namespace UnqualifiedName

def base : UnqualifiedName → BaseName
  | .mk base _ => base

end UnqualifiedName

namespace UnscopedName

def name : UnscopedName → UnqualifiedName
  | .plain name | .standard name => name

end UnscopedName

mutual

def TypeUse.className? : TypeUse → Option ClassName
  | .basic _ | .extended _ => none
  | .wellKnown part => part.className?.map ClassName.wellKnown
  | .component component => component.className?

def TemplateUse.className? : TemplateUse → Option ClassName
  | .wellKnown part => part.className?.map ClassName.wellKnown
  | .component component => component.className?

def ScopeUse.className? : ScopeUse → Option ClassName
  | .wellKnown part => part.className?.map ClassName.wellKnown
  | .component component => component.className?
  | .final scope => scope.className?

def Component.className? : Component → Option ClassName
  | .type type => type.className?
  | .scope scope => scope.className?
  | .templateName name => name.name.base.className?
  | .templateParam _ => none

def CompoundType.className? : CompoundType → Option ClassName
  | .named _ name => name.className?
  | _ => none

def Scope.className? : Scope → Option ClassName
  | .top name => name.base.className?
  | .nested scope name => name.base.className?.or scope.className?
  | .template scope _ => scope.className?
  | .templateParam _ => none
  | .dataMember _ name => some (.source name)

def NestedName.className? : NestedName → Option ClassName
  | .mk _ scope => scope.className?

def Name.className? : Name → Option ClassName
  | .nested name => name.className?
  | .unscoped name => name.name.base.className?
  | .template template _ => template.className?
  | .local _ (.inBody entity) | .local _ (.inDefaultArgument entity) => entity.className?
  | .local _ .stringLiteral => none

end

mutual

/-- The template arguments of a type that is given by a parameter of another template, or of what
it points or refers to. -/
def TypeUse.templateArgs? : TypeUse → Option TemplateArgs
  | .component component => component.templateArgs?
  | _ => none

def Component.templateArgs? : Component → Option TemplateArgs
  | .type type => type.templateArgs?
  | _ => none

def CompoundType.templateArgs? : CompoundType → Option TemplateArgs
  | .template _ args => some args
  | .pointer type | .lvalueRef type | .rvalueRef type => type.templateArgs?
  | _ => none

end

mutual

/-- Whether the last name of a scope is one of a function without a type of its result. -/
def ScopeUse.hasNoResult : ScopeUse → Bool
  | .wellKnown _ => false
  | .component component => component.hasNoResult
  | .final scope => scope.hasNoResult

/-- Whether the last name of a component is one of a function without a type of its result. -/
def Component.hasNoResult : Component → Bool
  | .scope scope => scope.hasNoResult
  | _ => false

/-- Whether the last name of a scope is one of a function without a type of its result. -/
def Scope.hasNoResult : Scope → Bool
  | .top name | .nested _ name => name.base.hasNoResult
  | .template scope _ => scope.hasNoResult
  | _ => false

end

namespace NestedName

def scope : NestedName → Scope
  | .mk _ scope => scope

end NestedName

namespace Name

def templateArgs? : Name → Option TemplateArgs
  | .nested name =>
    match name.scope with
    | .template _ args => some args
    | _ => none
  | .unscoped _ => none
  | .template _ args => some args
  | .local _ (.inBody entity) | .local _ (.inDefaultArgument entity) => entity.templateArgs?
  | .local _ .stringLiteral => none

/-- Whether a function of this name has no type of its result written. -/
def hasNoResult : Name → Bool
  | .nested name => name.scope.hasNoResult
  | .unscoped name => name.name.base.hasNoResult
  | _ => false

end Name

end Mangling

end Symbolization
