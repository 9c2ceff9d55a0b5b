import Symbolization.Proofs.Session.Lawful
import Symbolization.Session.InMemory

/-!
# Visibility of modules given as values

The modules of an in-memory session are there from the start and stay.  A batch changes only which
of them are visible, so everything that is known about a module stays true.
-/

namespace Symbolization

namespace InMemorySession

/-- The end of a batch leaves a module as it is but for its visibility. -/
theorem module?_reportEnd (session : InMemorySession) (handle : ModuleHandle) :
    ∃ visible : MemoryModule → Bool,
      session.reportEnd.2.module? handle =
        (session.module? handle).map fun module => { module with isVisible := visible module } := by
  unfold reportEnd
  cases session.batch with
  | none => exact ⟨MemoryModule.isVisible, by simp⟩
  | some batch =>
      refine ⟨fun _ => batch.contains handle, ?_⟩
      obtain ⟨number⟩ := handle
      cases number with
      | zero => rfl
      | succ index =>
          simp only [module?, handles, List.getElem?_map, List.getElem?_zipIdx, Nat.zero_add,
            Option.map_map]
          rfl

theorem unit?_reportEnd (session : InMemorySession) (handle : UnitHandle) :
    session.reportEnd.2.unit? handle = session.unit? handle := by
  obtain ⟨visible, same⟩ := session.module?_reportEnd handle.module
  simp only [unit?, same]
  cases session.module? handle.module <;> rfl

theorem units_reportEnd (session : InMemorySession) (module : ModuleHandle) :
    session.reportEnd.2.units module = session.units module := by
  obtain ⟨visible, same⟩ := session.module?_reportEnd module
  simp only [units, same]
  cases session.module? module <;> rfl

theorem agreeOn_reportEnd (session : InMemorySession) (module : ModuleHandle) :
    DebugView.AgreeOn module session.view session.reportEnd.2.view where
  units := (session.units_reportEnd module).symm
  root _ := by simp only [view, unit?_reportEnd]
  children _ := by simp only [view, children, unit?_reportEnd]
  tag _ := by simp only [view, unit?_reportEnd]
  isDeclaration _ := by simp only [view, unit?_reportEnd]
  ranges _ := by simp only [view, unit?_reportEnd]

theorem view_confined (session : InMemorySession) : session.view.Confined where
  unit_module := by
    intro module owned member
    simp only [view, units] at member
    split at member
    · contradiction
    · obtain ⟨entry, _, rfl⟩ := List.mem_map.mp member
      rfl
  root_unit := by
    intro unit root found
    obtain ⟨_, _, rfl⟩ := Option.map_eq_some_iff.mp found
    rfl
  unitAt_module := by
    intro module address owned found
    simp only [view, unitAt, Option.bind_eq_bind, Option.bind_eq_some_iff] at found
    obtain ⟨known, _, onDisk, _, assignment, _, unit, _, equality⟩ := found
    cases equality
    rfl
  scope_unit := by
    intro unit address scope member
    simp only [view] at member
    split at member
    · contradiction
    · obtain ⟨offset, _, rfl⟩ := List.mem_map.mp member
      rfl

theorem view_reportModule (session : InMemorySession) (path : FilePath) (loadAddress : UInt64) :
    (session.reportModule path loadAddress).2.view = session.view := by
  unfold reportModule
  cases session.batch with
  | none => rfl
  | some batch =>
      dsimp only
      split <;> rfl

theorem reportModule_noteEnumeration (session : InMemorySession) (module : ModuleHandle)
    (path : FilePath) (loadAddress : UInt64) :
    reportModule (DebugSession.noteEnumeration session module) path loadAddress =
      ((session.reportModule path loadAddress).1,
        DebugSession.noteEnumeration (session.reportModule path loadAddress).2 module) := by
  obtain ⟨modules, batch, enumerations⟩ := session
  cases batch with
  | none => rfl
  | some batch =>
      simp only [reportModule, DebugSession.noteEnumeration, handles]
      split <;> rfl

theorem reportEnd_noteEnumeration (session : InMemorySession) (module : ModuleHandle) :
    reportEnd (DebugSession.noteEnumeration session module) =
      (session.reportEnd.1, DebugSession.noteEnumeration session.reportEnd.2 module) := by
  obtain ⟨modules, batch, enumerations⟩ := session
  cases batch <;> rfl

instance : Surroundings InMemorySession where
  World := Empty
  surround _ world := world.elim

instance : LawfulSession InMemorySession where
  Legal _ := True
  legal_reportBegin _ := trivial
  legal_reportModule _ _ _ := trivial
  legal_reportEnd _ := trivial
  legal_noteEnumeration _ _ := trivial
  legal_surround _ _ := trivial
  confined := view_confined
  view_reportBegin _ := rfl
  view_reportModule := view_reportModule
  view_noteEnumeration _ _ := rfl
  view_surround _ world := world.elim
  agreeOn_reportEnd _ _ _ := agreeOn_reportEnd _ _
  reportBegin_noteEnumeration _ _ := rfl
  reportModule_noteEnumeration := reportModule_noteEnumeration
  reportEnd_noteEnumeration := reportEnd_noteEnumeration
  surround_noteEnumeration _ _ world := world.elim

end InMemorySession

end Symbolization
