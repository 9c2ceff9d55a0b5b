import Symbolization.Index.ModuleIndex

/-!
# Indexes kept for later

The index of a module is built when it is first asked for and kept until its module is dropped.
-/

namespace Symbolization

/-- The module indexes built so far, at most one for each module. -/
structure IndexCache where
  entries : List (ModuleHandle × ModuleIndex)
  deriving Repr

namespace IndexCache

def empty : IndexCache := ⟨[]⟩

def get? (cache : IndexCache) (module : ModuleHandle) : Option ModuleIndex :=
  (cache.entries.find? (·.1 == module)).map (·.2)

def contains (cache : IndexCache) (module : ModuleHandle) : Bool := (cache.get? module).isSome

/-- The cache with an index for the module, built now unless it is there already. -/
def ensure (cache : IndexCache) (view : DebugView) (module : ModuleHandle) : IndexCache :=
  if cache.contains module then cache
  else ⟨cache.entries ++ [(module, ModuleIndex.build view module)]⟩

/-- The cache with an index for the module, and the session that may have been asked for its
units. -/
def ensureFrom {Session : Type} [DebugSession Session] (cache : IndexCache) (session : Session)
    (module : ModuleHandle) : IndexCache × Session :=
  if cache.contains module then (cache, session)
  else
    let (index, next) := ModuleIndex.buildFrom session module
    (⟨cache.entries ++ [(module, index)]⟩, next)

/-- A module is enumerated once for each index that is built, and otherwise not at all. -/
theorem ensureFrom_eq {Session : Type} [DebugSession Session] (cache : IndexCache)
    (session : Session) (module : ModuleHandle) :
    cache.ensureFrom session module =
      (cache.ensure (DebugSession.view session) module,
        if cache.contains module then session
        else DebugSession.noteEnumeration session module) := by
  unfold ensureFrom ensure
  split <;> rfl

def findUnit (cache : IndexCache) (module : ModuleHandle) (address : UInt64) : Option OwnedUnit :=
  (cache.get? module).bind (·.findUnit address)

/-- Drops the index of every module that is not to be kept. -/
def retain (cache : IndexCache) (keep : ModuleHandle → Bool) : IndexCache :=
  ⟨cache.entries.filter fun entry => keep entry.1⟩

def size (cache : IndexCache) : Nat := cache.entries.length

def isEmpty (cache : IndexCache) : Bool := cache.entries.isEmpty

end IndexCache

end Symbolization
