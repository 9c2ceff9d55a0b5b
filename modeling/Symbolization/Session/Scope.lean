/-!
# Entry kinds

The kinds of debugging entries, by their standard codes, and which of them enclose code.
-/

namespace Symbolization

structure Tag where
  code : Nat
  deriving DecidableEq, Repr

namespace Tag

def compileUnit : Tag := ⟨0x11⟩
def subprogram : Tag := ⟨0x2e⟩
def inlinedSubroutine : Tag := ⟨0x1d⟩
def lexicalBlock : Tag := ⟨0x0b⟩
def entryPoint : Tag := ⟨0x03⟩
def tryBlock : Tag := ⟨0x32⟩
def catchBlock : Tag := ⟨0x25⟩
def withStatement : Tag := ⟨0x22⟩

/-- The kinds that enclose code and take part in scope lookups. -/
def scopes : List Tag :=
  [subprogram, inlinedSubroutine, lexicalBlock, entryPoint, tryBlock, catchBlock, withStatement]

def isScope (tag : Tag) : Bool := scopes.contains tag

/-- Whether entries of this kind are routines, called or inlined, whose ranges locate a unit. -/
def isRoutine (tag : Tag) : Bool := tag == subprogram || tag == inlinedSubroutine

end Tag

end Symbolization
