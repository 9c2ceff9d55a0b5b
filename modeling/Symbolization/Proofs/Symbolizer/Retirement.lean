import Symbolization.Proofs.Order.Search
import Symbolization.Proofs.Session.HandleIdentity
import Symbolization.Proofs.Session.Visibility
import Symbolization.Proofs.Symbolizer.Run

/-!
# Handles that are out of use

A module that is known before the end of a batch and unknown after it is lost: whatever a symbolizer
is asked to do from then on, nothing becomes known under the handle.
-/

namespace Symbolization

namespace Symbolizer

variable {Session : Type} [DebugSession Session] [Surroundings Session]

def Lost (symbolizer : Symbolizer Session) (module : ModuleHandle) : Prop :=
  ∀ operations : List (Operation Session),
    (symbolizer.run operations).view.moduleInfo module = none

theorem Lost.perform {symbolizer : Symbolizer Session} {module : ModuleHandle}
    (lost : symbolizer.Lost module) (operation : Operation Session) :
    (symbolizer.perform operation).Lost module :=
  fun operations => lost (operation :: operations)

end Symbolizer

/-- A type of sessions that know every module which they find, and that never bring back a module
which the end of a batch left out. -/
class RetiresHandles (Session : Type) [DebugSession Session] [Surroundings Session]
    [LawfulSession Session] where
  known_of_moduleAt : ∀ {session : Session} {address : UInt64} {module : ModuleHandle},
    (DebugSession.view session).moduleAt address = some module →
    ((DebugSession.view session).moduleInfo module).isSome
  lost_endReport : ∀ {symbolizer : Symbolizer Session} {module : ModuleHandle},
    LawfulSession.Legal symbolizer.session →
    (symbolizer.view.moduleInfo module).isSome →
    symbolizer.endReport.2.view.moduleInfo module = none → symbolizer.endReport.2.Lost module

namespace ImageSession

theorem known_of_moduleAt {session : ImageSession} {address : UInt64} {handle : ModuleHandle}
    (found : session.moduleAt address = some handle) :
    (session.view.moduleInfo handle).isSome := by
  obtain ⟨entry, last, rfl⟩ := Option.map_eq_some_iff.mp found
  rw [view, Option.isSome_map, image?, Option.isSome_map, List.find?_isSome]
  exact ⟨entry, (mem_of_lastUpTo? last).1, beq_self_eq_true _⟩

/-- What an operation does to the session is what some requests do. -/
theorem exists_session_perform (symbolizer : Symbolizer ImageSession)
    (operation : Operation ImageSession) :
    ∃ requests, (symbolizer.perform operation).session = symbolizer.session.run requests := by
  cases operation with
  | beginReport => exact ⟨[.reportBegin], rfl⟩
  | report path loadAddress =>
    rw [Symbolizer.perform, Symbolizer.report_snd]
    split
    · exact ⟨[.reportModule path loadAddress], rfl⟩
    · exact ⟨[], rfl⟩
  | endReport =>
    rw [Symbolizer.perform, Symbolizer.endReport_snd]
    split
    · exact ⟨[.reportEnd], rfl⟩
    · exact ⟨[], rfl⟩
  | resolve address =>
    rw [Symbolizer.perform]
    obtain same | ⟨module, built⟩ := symbolizer.resolve_next address
    · exact ⟨[], by rw [same]; rfl⟩
    · exact ⟨[], by rw [built.next, Symbolizer.withIndex]; exact ite_self _⟩
  | surround files => exact ⟨[.replaceFiles files], rfl⟩

theorem exists_session_run (symbolizer : Symbolizer ImageSession)
    (operations : List (Operation ImageSession)) :
    ∃ requests, (symbolizer.run operations).session = symbolizer.session.run requests := by
  have step (later : Symbolizer ImageSession) (operation : Operation ImageSession) :
      (∃ requests, later.session = symbolizer.session.run requests) →
        ∃ requests, (later.perform operation).session = symbolizer.session.run requests := by
    rintro ⟨requests, same⟩
    obtain ⟨more, next⟩ := exists_session_perform later operation
    exact ⟨requests ++ more, by rw [next, same, run_append]⟩
  exact Symbolizer.run_induction step ⟨[], rfl⟩ operations

theorem batch_reportEnd (session : ImageSession) : session.reportEnd.2.batch = none := by
  cases isOpen : session.batch with
  | none => rw [reportEnd, isOpen]; exact isOpen
  | some batch => rw [reportEnd_snd isOpen]

theorem absent_of_reportEnd {session : ImageSession} (orderly : session.Orderly)
    {handle : ModuleHandle} (known : (session.image? handle).isSome)
    (unknown : session.reportEnd.2.image? handle = none) (requests : List Request) :
    (session.reportEnd.2.run requests).view.Absent handle := by
  obtain ⟨image, registered⟩ := Option.isSome_iff_exists.mp known
  have step := session.step_perform .reportEnd
  have issued : handle.number ≤ session.lastHandle :=
    (orderly.issued_of_holds (.inl registered : session.Holds ⟨handle, image⟩)).2
  refine absent_run (orderly.step step) (issued.trans (lastHandle_le_of_step step)) ?_ requests
  rintro other (still | ⟨batch, isOpen, _⟩)
  · exact absurd (unknown.symm.trans still) nofun
  · exact absurd (session.batch_reportEnd.symm.trans isOpen) nofun

theorem lost_endReport {symbolizer : Symbolizer ImageSession} {module : ModuleHandle}
    (reachable : symbolizer.session.Reachable)
    (known : (symbolizer.view.moduleInfo module).isSome)
    (unknown : symbolizer.endReport.2.view.moduleInfo module = none) :
    symbolizer.endReport.2.Lost module := by
  intro operations
  obtain ⟨requests, same⟩ := exists_session_run symbolizer.endReport.2 operations
  rw [Symbolizer.view, symbolizer.session_endReport] at unknown
  rw [Symbolizer.view, same, symbolizer.session_endReport]
  split at unknown
  case isTrue reporting =>
    rw [if_pos reporting]
    exact (absent_of_reportEnd reachable.orderly (Option.isSome_map ▸ known)
      (Option.map_eq_none_iff.mp unknown) requests).moduleInfo
  case isFalse => exact absurd known (Option.not_isSome_iff_eq_none.mpr unknown)

instance : RetiresHandles ImageSession where
  known_of_moduleAt := known_of_moduleAt
  lost_endReport := lost_endReport

end ImageSession

namespace InMemorySession

theorem known_of_moduleAt {session : InMemorySession} {address : UInt64} {handle : ModuleHandle}
    (found : session.moduleAt address = some handle) :
    (session.view.moduleInfo handle).isSome := by
  obtain ⟨_, first, rfl⟩ := Option.map_eq_some_iff.mp found
  obtain ⟨⟨module, index⟩, member, rfl⟩ := List.mem_map.mp (List.mem_of_find?_eq_some first)
  have present := List.mem_zipIdx_iff_getElem?.mp member
  simp [view, module?, present]

theorem known_reportEnd {session : InMemorySession} {handle : ModuleHandle}
    (known : (session.view.moduleInfo handle).isSome) :
    (session.reportEnd.2.view.moduleInfo handle).isSome := by
  obtain ⟨visible, same⟩ := session.module?_reportEnd handle
  simpa [view, same] using known

instance : RetiresHandles InMemorySession where
  known_of_moduleAt := known_of_moduleAt
  lost_endReport := by
    intro symbolizer module _ known unknown
    rw [Symbolizer.view, symbolizer.session_endReport] at unknown
    split at unknown
    case isTrue => exact absurd (known_reportEnd known) (Option.not_isSome_iff_eq_none.mpr unknown)
    case isFalse => exact absurd known (Option.not_isSome_iff_eq_none.mpr unknown)

end InMemorySession

end Symbolization
