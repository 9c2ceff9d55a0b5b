import Symbolization.Elf.Error
import Symbolization.Files.Source

/-!
# Faults of module registration

Everything that can go wrong while modules are reported.  Faults inside the debug data of an image
are not among them: what cannot be read there is absent.
-/

namespace Symbolization

/-- Why a module, or a batch of modules, was not registered as asked. -/
inductive SymbolizeError where
  | file (error : FileError)
  | object (error : ElfError)
  | noLoadableSegments (path : String)
  | notReporting
  | overlappingModules (first second : String)
  deriving DecidableEq, Repr

namespace SymbolizeError

def message : SymbolizeError → String
  | .file error => error.message
  | .object error => error.message
  | .noLoadableSegments path => path ++ " has no loadable segments"
  | .notReporting => "no module reporting batch is open"
  | .overlappingModules first second =>
    "modules " ++ first ++ " and " ++ second ++ " overlap"

end SymbolizeError

end Symbolization
