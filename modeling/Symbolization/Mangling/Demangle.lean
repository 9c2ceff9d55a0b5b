import Symbolization.Mangling.Grammar
import Symbolization.Mangling.HashedPath
import Symbolization.Mangling.Printer

/-!
# Demangling

A mangled name is shown as the path or as the declaration that it stands for.  A name that stands
for neither is shown as it is.
-/

namespace Symbolization

namespace Mangling

/-- The declaration that a text stands for, unless it is empty. -/
def declaration? (name : String) : Option String :=
  ((MangledName.parse? name).bind MangledName.text?).filter fun text => !text.isEmpty

/-- The readable form of a name. -/
def demangle (name : String) : String :=
  if name.utf8ByteSize < 3 ∨ ¬ "_Z".toList.isPrefixOf name.toList then name
  else
    match HashedPath.parse? name with
    | some path => path.render
    | none => (declaration? name).getD name

end Mangling

end Symbolization
