import Symbolization.Dwarf.DebugData
import Symbolization.Text.Utf8

/-!
# Names of entries

An entry without a name of its own may refer to another one that has it: an inlined call or an
out-of-line instance to its abstract origin, a definition to the declaration that it completes.
References may lead into other units and in circles, so only so many are followed.
-/

namespace Symbolization

namespace Dwarf

/-- How many references a search for a name follows. -/
def originDepth : Nat := 8

/-- The attributes that name an entry.  A linkage name counts more than a plain one. -/
def nameAttributes : List AttributeName := [.linkageName, .olderLinkageName, .plainName]

namespace DebugData

/-- The entry that a reference of an entry leads to, with its unit. -/
def origin? (data : DebugData) (unit : CompilationUnit) (entry : Entry) (link : AttributeName) :
    Option (CompilationUnit × Entry) :=
  match entry.value? link with
  | some (.unitReference offset) => (unit.entries.get? offset).map fun origin => (unit, origin)
  | some (.infoReference offset) => do
    let (index, inside) ← data.unitAt? offset
    let target ← data.units[index]?
    let origin ← target.entries.get? inside
    some (target, origin)
  | _ => none

def ownText? (unit : CompilationUnit) (entry : Entry) (name : AttributeName) : Option String :=
  ((entry.value? name).bind unit.context.text?).map Utf8.lossy

/-- The text of an attribute of the entry, or else of its abstract origin, or else of the
declaration that it completes, when at most `hops` references are followed on the way. -/
def inheritedText? (data : DebugData) (name : AttributeName) :
    (hops : Nat) → CompilationUnit → Entry → Option String
  | 0, unit, entry => ownText? unit entry name
  | hops + 1, unit, entry =>
    let through (link : AttributeName) : Option String :=
      (data.origin? unit entry link).bind fun origin =>
        data.inheritedText? name hops origin.1 origin.2
    ((ownText? unit entry name).or (through .abstractOrigin)).or (through .specification)

def name? (data : DebugData) (unit : CompilationUnit) (entry : Entry) : Option String :=
  nameAttributes.findSome? fun name => data.inheritedText? name originDepth unit entry

end DebugData

end Dwarf

end Symbolization
