import Symbolization.Dwarf.EntryRanges

/-!
# Scopes around an address

The entries of a unit come as a flat stream with changes of level.  One pass over it keeps the
depth and finds the deepest scope that holds an address, and with it the entries around that scope:
what lies below a scope that misses the address is passed over.
-/

namespace Symbolization

/-- How a node of a tree stands to an address. -/
inductive Coverage where
  /-- The node is no scope and says nothing. -/
  | neutral
  | missed
  | covered
  deriving DecidableEq, Repr

/-- What a pass over the nodes of a tree has found so far. -/
structure ScopeWalk (α : Type) where
  /-- The depth of the node at hand. -/
  depth : Int
  /-- The last node that was not passed over and the nodes around it, with their depths. -/
  path : List (Int × α)
  /-- The deepest scope found and the nodes around it. -/
  chain : List α
  chainDepth : Int
  /-- The depth of the scope whose inside is being passed over. -/
  passing : Option Int

namespace ScopeWalk

variable {α : Type}

def start : ScopeWalk α := ⟨0, [], [], -1, none⟩

/-- The pass with one more node, which comes with the change of level that leads to it. -/
def step (coverage : α → Coverage) (walk : ScopeWalk α) (node : Int × α) : ScopeWalk α :=
  let depth := walk.depth + node.1
  if walk.passing.any (· < depth) then { walk with depth }
  else
    let path := (depth, node.2) :: walk.path.dropWhile (depth ≤ ·.1)
    match coverage node.2 with
    | .neutral => { walk with depth, path, passing := none }
    | .missed => { walk with depth, path, passing := some depth }
    | .covered =>
      if walk.chainDepth < depth then ⟨depth, path, path.map (·.2), depth, none⟩
      else { walk with depth, path, passing := none }

/-- The deepest scope that covers, the first among equals, and the nodes around it. -/
def innermost (coverage : α → Coverage) (nodes : List (Int × α)) : List α :=
  (nodes.foldl (step coverage) start).chain

end ScopeWalk

namespace Dwarf

namespace CompilationUnit

def coverage (unit : CompilationUnit) (address : UInt64) (entry : Entry) : Coverage :=
  if entry.tag.isScope then
    if (unit.ranges entry).any (·.contains address) then .covered else .missed
  else .neutral

/-- The offsets of the scopes around an on-disk address, innermost first. -/
def scopes (unit : CompilationUnit) (address : UInt64) : List Nat :=
  (ScopeWalk.innermost (unit.coverage address) unit.entries.all).map (·.offset)

end CompilationUnit

end Dwarf

end Symbolization
