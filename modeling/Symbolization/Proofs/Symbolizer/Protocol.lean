import Symbolization.Proofs.Session.Registration
import Symbolization.Proofs.Session.Visibility
import Symbolization.Proofs.Symbolizer.Run

/-!
# The protocol between a symbolizer and its session

A symbolizer keeps its own account of whether a batch is open.  It may be given a session in any
condition, and operations may come in any order and fail: as long as it takes a batch to be open
there is one, so the session never has to refuse what it is asked.
-/

namespace Symbolization

/-- A type of sessions of which each tells whether a batch is open. -/
class BatchSession (Session : Type) [DebugSession Session] [Surroundings Session] where
  isOpen : Session → Bool
  isOpen_reportBegin : ∀ session : Session, isOpen (DebugSession.reportBegin session)
  isOpen_reportModule : ∀ (session : Session) (path : FilePath) (loadAddress : UInt64),
    isOpen (DebugSession.reportModule session path loadAddress).2 = isOpen session
  isOpen_noteEnumeration : ∀ (session : Session) (module : ModuleHandle),
    isOpen (DebugSession.noteEnumeration session module) = isOpen session
  isOpen_surround : ∀ (session : Session) (world : Surroundings.World Session),
    isOpen (Surroundings.surround session world) = isOpen session
  /-- Of all errors this one stands for a batch that is not open and for nothing else. -/
  reportModule_eq_notReporting_iff : ∀ (session : Session) (path : FilePath) (loadAddress : UInt64),
    (DebugSession.reportModule session path loadAddress).1 = .error .notReporting ↔
      isOpen session = false
  reportEnd_eq_notReporting_iff : ∀ session : Session,
    (DebugSession.reportEnd session).1 = .error .notReporting ↔ isOpen session = false

theorem Image.ne_notReporting_of_load {files : FileSource} {path : FilePath} {bias : UInt64}
    {error : SymbolizeError} (failed : Image.load files path bias = .error error) :
    error ≠ .notReporting := by
  rintro rfl
  unfold Image.load at failed
  cases found : files path with
  | error error => simp [found] at failed
  | ok bytes =>
      simp only [found] at failed
      split at failed
      · simp at failed
      · cases parsed : Elf.File.parse bytes with
        | error error => simp [parsed] at failed
        | ok file => cases extent : file.extent? <;> simp [parsed, Image.ofFile, extent] at failed

namespace ImageSession

theorem isSome_batch_reportModule (session : ImageSession) (path : FilePath)
    (loadAddress : UInt64) :
    (session.reportModule path loadAddress).2.batch.isSome = session.batch.isSome := by
  have step := session.step_reportModule path loadAddress
  generalize (session.reportModule path loadAddress).2 = next at step ⊢
  cases step with
  | idle => rfl
  | kept isOpen => rw [isOpen]; rfl
  | read isOpen => rw [isOpen]; rfl

theorem reportModule_eq_notReporting_iff (session : ImageSession) (path : FilePath)
    (loadAddress : UInt64) :
    (session.reportModule path loadAddress).1 = .error .notReporting ↔
      session.batch.isSome = false := by
  cases isOpen : session.batch with
  | none => simp [reportModule, isOpen]
  | some batch =>
      simp only [Option.isSome_some, Bool.true_eq_false, iff_false]
      cases pending : session.pending? batch path loadAddress with
      | some handle => simp [reportModule_of_pending isOpen pending]
      | none =>
          cases registered : session.registered? path loadAddress with
          | some handle => simp [reportModule_of_registered isOpen pending registered]
          | none =>
              cases loaded : Image.load session.files path loadAddress with
              | ok image => simp [reportModule_of_read isOpen pending registered loaded]
              | error error =>
                  have otherFault := Image.ne_notReporting_of_load loaded
                  simp [reportModule_of_fault isOpen pending registered loaded, otherFault]

theorem reportEnd_eq_notReporting_iff (session : ImageSession) :
    session.reportEnd.1 = .error .notReporting ↔ session.batch.isSome = false := by
  cases isOpen : session.batch with
  | none => simp [reportEnd, isOpen]
  | some batch =>
      simp only [reportEnd, isOpen, Option.isSome_some, Bool.true_eq_false, iff_false]
      split <;> simp

instance : BatchSession ImageSession where
  isOpen session := session.batch.isSome
  isOpen_reportBegin _ := rfl
  isOpen_reportModule := isSome_batch_reportModule
  isOpen_noteEnumeration _ _ := rfl
  isOpen_surround _ _ := rfl
  reportModule_eq_notReporting_iff := reportModule_eq_notReporting_iff
  reportEnd_eq_notReporting_iff := reportEnd_eq_notReporting_iff

end ImageSession

namespace InMemorySession

theorem isSome_batch_reportModule (session : InMemorySession) (path : FilePath)
    (loadAddress : UInt64) :
    (session.reportModule path loadAddress).2.batch.isSome = session.batch.isSome := by
  unfold reportModule
  cases isOpen : session.batch with
  | none => simp [isOpen]
  | some batch =>
      dsimp only
      split <;> simp [isOpen]

theorem reportModule_eq_notReporting_iff (session : InMemorySession) (path : FilePath)
    (loadAddress : UInt64) :
    (session.reportModule path loadAddress).1 = .error .notReporting ↔
      session.batch.isSome = false := by
  unfold reportModule
  cases session.batch with
  | none => simp
  | some batch =>
      dsimp only
      split <;> simp

theorem reportEnd_eq_notReporting_iff (session : InMemorySession) :
    session.reportEnd.1 = .error .notReporting ↔ session.batch.isSome = false := by
  unfold reportEnd
  cases session.batch <;> simp

instance : BatchSession InMemorySession where
  isOpen session := session.batch.isSome
  isOpen_reportBegin _ := rfl
  isOpen_reportModule := isSome_batch_reportModule
  isOpen_noteEnumeration _ _ := rfl
  isOpen_surround _ world := world.elim
  reportModule_eq_notReporting_iff := reportModule_eq_notReporting_iff
  reportEnd_eq_notReporting_iff := reportEnd_eq_notReporting_iff

end InMemorySession

/-- The error with which the session answered, if the warning is about one. -/
def Warning.error? : Warning → Option SymbolizeError
  | .moduleFailed _ error => some error
  | .batchFailed error => some error
  | _ => none

namespace Symbolizer

section

variable {Session : Type} [DebugSession Session] [Surroundings Session]

/-- What there is to tell about an operation. -/
def warnings (symbolizer : Symbolizer Session) : Operation Session → List Warning
  | .beginReport => symbolizer.beginReport.1
  | .report path loadAddress => (symbolizer.report path loadAddress).1
  | .endReport => symbolizer.endReport.1
  | .resolve address => (symbolizer.resolve address).2.1
  | .surround _ => []

/-- Every error that is told is an answer of the session to a report or to the end of a batch. -/
theorem error_of_mem_warnings {symbolizer : Symbolizer Session} {operation : Operation Session}
    {warning : Warning} (member : warning ∈ symbolizer.warnings operation)
    {error : SymbolizeError} (told : warning.error? = some error) :
    symbolizer.state = .reporting ∧
      ((∃ path loadAddress,
          (DebugSession.reportModule symbolizer.session path loadAddress).1 = .error error) ∨
        (DebugSession.reportEnd symbolizer.session).1 = .error error) := by
  cases operation with
  | beginReport =>
      by_cases reporting : symbolizer.state = .reporting <;>
        simp [warnings, beginReport, reporting] at member
      simp [member, Warning.error?] at told
  | report path loadAddress =>
      by_cases reporting : symbolizer.state = .reporting
      · cases outcome : (DebugSession.reportModule symbolizer.session path loadAddress).1 with
        | ok handle => simp [warnings, report, reporting, outcome] at member
        | error fault =>
            simp [warnings, report, reporting, outcome] at member
            rw [member, Warning.error?] at told
            cases told
            exact ⟨reporting, .inl ⟨path, loadAddress, outcome⟩⟩
      · simp [warnings, report, reporting] at member
        simp [member, Warning.error?] at told
  | endReport =>
      by_cases reporting : symbolizer.state = .reporting
      · cases outcome : (DebugSession.reportEnd symbolizer.session).1 with
        | ok done => simp [warnings, endReport, reporting, outcome] at member
        | error fault =>
            simp [warnings, endReport, reporting, outcome] at member
            rw [member, Warning.error?] at told
            cases told
            exact ⟨reporting, .inr rfl⟩
      · simp [warnings, endReport, reporting] at member
        simp [member, Warning.error?] at told
  | resolve address =>
      have noError : ∀ warning ∈ (symbolizer.resolve address).2.1, warning.error? = none := by
        unfold resolve
        intro warning member
        split at member
        · split at member
          · cases List.mem_singleton.mp member
            rfl
          · split at member <;> contradiction
        · cases List.mem_singleton.mp member
          rfl
      simp [noError warning member] at told
  | surround world => contradiction

variable [BatchSession Session]

/-- While reports are taken, the session has a batch open. -/
def InStep (symbolizer : Symbolizer Session) : Prop :=
  symbolizer.state = .reporting → BatchSession.isOpen symbolizer.session

theorem inStep_new (session : Session) : (new session).InStep := by
  intro reporting
  contradiction

theorem InStep.perform {symbolizer : Symbolizer Session} (inStep : symbolizer.InStep)
    (operation : Operation Session) : (symbolizer.perform operation).InStep := by
  intro reporting
  cases operation with
  | beginReport => exact BatchSession.isOpen_reportBegin symbolizer.session
  | report path loadAddress =>
      rw [Symbolizer.perform, report_snd] at reporting ⊢
      split at reporting
      · rename_i before
        rw [if_pos before]
        exact (BatchSession.isOpen_reportModule _ _ _).trans (inStep before)
      · contradiction
  | endReport =>
      rw [Symbolizer.perform, endReport_snd] at reporting
      split at reporting <;> contradiction
  | resolve address =>
      rw [Symbolizer.perform] at reporting ⊢
      obtain same | ⟨module, built⟩ := resolve_next symbolizer address
      · rw [same] at reporting ⊢
        exact inStep reporting
      · rw [built.next, withIndex, built.ready] at reporting
        contradiction
  | surround world => exact (BatchSession.isOpen_surround _ _).trans (inStep reporting)

theorem InStep.run {symbolizer : Symbolizer Session} (inStep : symbolizer.InStep)
    (operations : List (Operation Session)) : (symbolizer.run operations).InStep :=
  run_induction (fun _ operation inStep => inStep.perform operation) inStep operations

/-- A symbolizer that never asks its session for what needs a batch unless one is open, and that
leaves everything as it is where it does not follow a request. -/
structure KeepsProtocol (symbolizer : Symbolizer Session) : Prop where
  inStep : symbolizer.InStep
  reportModule_ne : symbolizer.state = .reporting → ∀ path loadAddress,
    (DebugSession.reportModule symbolizer.session path loadAddress).1 ≠ .error .notReporting
  reportEnd_ne : symbolizer.state = .reporting →
    (DebugSession.reportEnd symbolizer.session).1 ≠ .error .notReporting
  error?_ne : ∀ operation : Operation Session, ∀ warning ∈ symbolizer.warnings operation,
    warning.error? ≠ some .notReporting
  report_idle : symbolizer.state ≠ .reporting → ∀ path loadAddress,
    (symbolizer.report path loadAddress).2 = symbolizer
  endReport_idle : symbolizer.state ≠ .reporting → symbolizer.endReport.2 = symbolizer
  resolve_idle : symbolizer.state ≠ .ready → ∀ address,
    (symbolizer.resolve address).2.2 = symbolizer

theorem InStep.keepsProtocol {symbolizer : Symbolizer Session} (inStep : symbolizer.InStep) :
    symbolizer.KeepsProtocol := by
  have reportModule_ne : symbolizer.state = .reporting → ∀ path loadAddress,
      (DebugSession.reportModule symbolizer.session path loadAddress).1 ≠
        .error .notReporting := by
    intro reporting path loadAddress refused
    have closed := (BatchSession.reportModule_eq_notReporting_iff _ _ _).mp refused
    exact Bool.false_ne_true (closed.symm.trans (inStep reporting))
  have reportEnd_ne : symbolizer.state = .reporting →
      (DebugSession.reportEnd symbolizer.session).1 ≠ .error .notReporting := by
    intro reporting refused
    have closed := (BatchSession.reportEnd_eq_notReporting_iff _).mp refused
    exact Bool.false_ne_true (closed.symm.trans (inStep reporting))
  refine ⟨inStep, reportModule_ne, reportEnd_ne, ?_, ?_, ?_, ?_⟩
  · intro operation warning member told
    obtain ⟨reporting, ⟨path, loadAddress, refused⟩ | refused⟩ :=
      error_of_mem_warnings member told
    · exact reportModule_ne reporting path loadAddress refused
    · exact reportEnd_ne reporting refused
  · intro idle path loadAddress
    rw [report_snd, if_neg idle]
  · intro idle
    rw [endReport_snd, if_neg idle]
  · intro idle address
    rw [Symbolizer.resolve, if_neg idle]

end

/-- Over images as over modules given as values, and whatever the condition of the session at first,
no run of a symbolizer asks the session out of turn. -/
theorem keepsProtocol_of_session :
    (∀ (session : ImageSession) (operations : List (Operation ImageSession)),
      ((new session).run operations).KeepsProtocol) ∧
    ∀ (session : InMemorySession) (operations : List (Operation InMemorySession)),
      ((new session).run operations).KeepsProtocol :=
  ⟨fun session operations => ((inStep_new session).run operations).keepsProtocol,
    fun session operations => ((inStep_new session).run operations).keepsProtocol⟩

end Symbolizer

end Symbolization
