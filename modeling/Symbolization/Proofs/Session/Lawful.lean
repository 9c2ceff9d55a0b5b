import Symbolization.Session.Session

/-!
# Lawful sessions

What a session may change, and when.  Reports leave all answers alone until the batch ends, and
its end leaves the answers about the units of a module alone as long as the module is known before
and after it.  Both kinds of sessions obey these laws, so that whatever is derived from them holds
of either kind.
-/

namespace Symbolization

namespace DebugView

/-- The handles in an answer lie inside of what was asked about. -/
structure Confined (view : DebugView) : Prop where
  unit_module : ∀ {module : ModuleHandle} {owned : OwnedUnit},
    owned ∈ view.units module → owned.unit.module = module
  root_unit : ∀ {unit : UnitHandle} {root : EntryHandle},
    view.root unit = some root → root.unit = unit
  unitAt_module : ∀ {module : ModuleHandle} {address : UInt64} {owned : OwnedUnit},
    view.unitAt module address = some owned → owned.unit.module = module
  scope_unit : ∀ {unit : UnitHandle} {address : UInt64} {scope : EntryHandle},
    scope ∈ view.scopes unit address → scope.unit = unit

/-- The views give the same answers about the units of a module and the code of their entries. -/
structure AgreeOn (module : ModuleHandle) (left right : DebugView) : Prop where
  units : left.units module = right.units module
  root : ∀ {unit : UnitHandle}, unit.module = module → left.root unit = right.root unit
  children : ∀ {entry : EntryHandle}, entry.unit.module = module →
    left.children entry = right.children entry
  tag : ∀ {entry : EntryHandle}, entry.unit.module = module → left.tag entry = right.tag entry
  isDeclaration : ∀ {entry : EntryHandle}, entry.unit.module = module →
    left.isDeclaration entry = right.isDeclaration entry
  ranges : ∀ {entry : EntryHandle}, entry.unit.module = module →
    left.ranges entry = right.ranges entry

end DebugView

/-- What lies around the sessions of a type and may change at any time without their doing. -/
class Surroundings (Session : Type) where
  World : Type
  surround : Session → World → Session

/-- A type of sessions whose answers change only where the end of a batch replaces a module. -/
class LawfulSession (Session : Type) [DebugSession Session] [Surroundings Session] where
  /-- The sessions to which the laws apply. -/
  Legal : Session → Prop
  legal_reportBegin : ∀ {session : Session},
    Legal session → Legal (DebugSession.reportBegin session)
  legal_reportModule : ∀ {session : Session} (path : FilePath) (loadAddress : UInt64),
    Legal session → Legal (DebugSession.reportModule session path loadAddress).2
  legal_reportEnd : ∀ {session : Session},
    Legal session → Legal (DebugSession.reportEnd session).2
  legal_noteEnumeration : ∀ {session : Session} (module : ModuleHandle),
    Legal session → Legal (DebugSession.noteEnumeration session module)
  legal_surround : ∀ {session : Session} (world : Surroundings.World Session),
    Legal session → Legal (Surroundings.surround session world)
  confined : ∀ session : Session, (DebugSession.view session).Confined
  /-- Nothing but the end of a batch changes an answer. -/
  view_reportBegin : ∀ session : Session,
    DebugSession.view (DebugSession.reportBegin session) = DebugSession.view session
  view_reportModule : ∀ (session : Session) (path : FilePath) (loadAddress : UInt64),
    DebugSession.view (DebugSession.reportModule session path loadAddress).2 =
      DebugSession.view session
  view_noteEnumeration : ∀ (session : Session) (module : ModuleHandle),
    DebugSession.view (DebugSession.noteEnumeration session module) = DebugSession.view session
  view_surround : ∀ (session : Session) (world : Surroundings.World Session),
    DebugSession.view (Surroundings.surround session world) = DebugSession.view session
  /-- A module that is known before and after a batch ends stays as it is. -/
  agreeOn_reportEnd : ∀ {session : Session} {module : ModuleHandle}, Legal session →
    ((DebugSession.view session).moduleInfo module).isSome →
    ((DebugSession.view (DebugSession.reportEnd session).2).moduleInfo module).isSome →
    DebugView.AgreeOn module (DebugSession.view session)
      (DebugSession.view (DebugSession.reportEnd session).2)
  /-- Enumerations leave no trace in what reports do. -/
  reportBegin_noteEnumeration : ∀ (session : Session) (module : ModuleHandle),
    DebugSession.reportBegin (DebugSession.noteEnumeration session module) =
      DebugSession.noteEnumeration (DebugSession.reportBegin session) module
  reportModule_noteEnumeration : ∀ (session : Session) (module : ModuleHandle) (path : FilePath)
    (loadAddress : UInt64),
    DebugSession.reportModule (DebugSession.noteEnumeration session module) path loadAddress =
      ((DebugSession.reportModule session path loadAddress).1,
        DebugSession.noteEnumeration (DebugSession.reportModule session path loadAddress).2 module)
  reportEnd_noteEnumeration : ∀ (session : Session) (module : ModuleHandle),
    DebugSession.reportEnd (DebugSession.noteEnumeration session module) =
      ((DebugSession.reportEnd session).1,
        DebugSession.noteEnumeration (DebugSession.reportEnd session).2 module)
  surround_noteEnumeration : ∀ (session : Session) (module : ModuleHandle)
    (world : Surroundings.World Session),
    Surroundings.surround (DebugSession.noteEnumeration session module) world =
      DebugSession.noteEnumeration (Surroundings.surround session world) module

theorem LawfulSession.view_foldl_noteEnumeration {Session : Type} [DebugSession Session]
    [Surroundings Session] [LawfulSession Session] (session : Session)
    (log : List ModuleHandle) :
    DebugSession.view (log.foldl DebugSession.noteEnumeration session) =
      DebugSession.view session := by
  induction log generalizing session with
  | nil => rfl
  | cons module log induction =>
      rw [List.foldl_cons, induction, LawfulSession.view_noteEnumeration]

end Symbolization
