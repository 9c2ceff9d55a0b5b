import Symbolization.Proofs.Session.Registration
import Symbolization.Proofs.Session.Visibility
import Symbolization.Proofs.Symbolizer.Run

/-!
# Reports that fail

A report fails if no batch is open, if its file cannot be read or is no image, or if nothing of the
image is loaded.  Whichever it is, the session stays as it was, so a run without the reports that
fail in it takes the same steps otherwise.
-/

namespace Symbolization

/-- A type of sessions that no report changes unless it succeeds. -/
class FaultProofSession (Session : Type) [DebugSession Session] : Prop where
  reportModule_of_error : ∀ {session : Session} {path : FilePath} {loadAddress : UInt64}
      {error : SymbolizeError},
    (DebugSession.reportModule session path loadAddress).1 = .error error →
      (DebugSession.reportModule session path loadAddress).2 = session

theorem ImageSession.reportModule_of_error {session : ImageSession} {path : FilePath}
    {loadAddress : UInt64} {error : SymbolizeError}
    (failed : (session.reportModule path loadAddress).1 = .error error) :
    (session.reportModule path loadAddress).2 = session := by
  cases isOpen : session.batch with
  | none => rw [reportModule, isOpen]
  | some batch =>
      cases pending : session.pending? batch path loadAddress with
      | some handle => rw [reportModule_of_pending isOpen pending]
      | none =>
          cases registered : session.registered? path loadAddress with
          | some handle =>
              rw [reportModule_of_registered isOpen pending registered] at failed
              contradiction
          | none =>
              cases loaded : Image.load session.files path loadAddress with
              | error fault => rw [reportModule_of_fault isOpen pending registered loaded]
              | ok image =>
                  rw [reportModule_of_read isOpen pending registered loaded] at failed
                  contradiction

instance : FaultProofSession ImageSession where
  reportModule_of_error := ImageSession.reportModule_of_error

theorem InMemorySession.reportModule_of_error {session : InMemorySession} {path : FilePath}
    {loadAddress : UInt64} {error : SymbolizeError}
    (failed : (session.reportModule path loadAddress).1 = .error error) :
    (session.reportModule path loadAddress).2 = session := by
  unfold reportModule at failed ⊢
  cases isOpen : session.batch with
  | none => rfl
  | some batch =>
      simp only [isOpen] at failed ⊢
      split at failed
      · rfl
      · contradiction

instance : FaultProofSession InMemorySession where
  reportModule_of_error := InMemorySession.reportModule_of_error

namespace Symbolizer

section

variable {Session : Type} [DebugSession Session] [Surroundings Session]

/-- An operation with the symbolizer that it meets in a run. -/
structure Moment (Session : Type) [Surroundings Session] where
  before : Symbolizer Session
  operation : Operation Session

/-- Whether the operation is a report that the session answers with an error. -/
def Moment.isFault (moment : Moment Session) : Bool :=
  match moment.operation with
  | .report path loadAddress =>
    moment.before.state == .reporting &&
      !(DebugSession.reportModule moment.before.session path loadAddress).1.isOk
  | _ => false

def history (symbolizer : Symbolizer Session) : List (Operation Session) → List (Moment Session)
  | [] => []
  | operation :: operations =>
    ⟨symbolizer, operation⟩ :: (symbolizer.perform operation).history operations

/-- The operations of a run without the reports that fail in it. -/
def withoutFaults (symbolizer : Symbolizer Session) (operations : List (Operation Session)) :
    List (Operation Session) :=
  ((symbolizer.history operations).filter (!·.isFault)).map (·.operation)

theorem withoutFaults_cons (symbolizer : Symbolizer Session) (operation : Operation Session)
    (operations : List (Operation Session)) :
    symbolizer.withoutFaults (operation :: operations) =
      if Moment.isFault ⟨symbolizer, operation⟩ then
        (symbolizer.perform operation).withoutFaults operations
      else operation :: (symbolizer.perform operation).withoutFaults operations := by
  simp only [withoutFaults, history, List.filter_cons]
  cases Moment.isFault ⟨symbolizer, operation⟩ <;> rfl

variable [FaultProofSession Session]

theorem Moment.perform_eq_of_isFault {moment : Moment Session} (fault : moment.isFault) :
    moment.before.perform moment.operation = moment.before := by
  obtain ⟨symbolizer, operation⟩ := moment
  cases operation with
  | report path loadAddress =>
      simp only [isFault, Bool.and_eq_true, beq_iff_eq] at fault
      obtain ⟨reporting, refused⟩ := fault
      have unchanged :
          (DebugSession.reportModule symbolizer.session path loadAddress).2 =
            symbolizer.session := by
        cases outcome : (DebugSession.reportModule symbolizer.session path loadAddress).1 with
        | ok handle => simp [outcome, Except.isOk, Except.toBool] at refused
        | error error => exact FaultProofSession.reportModule_of_error outcome
      rw [perform, report_snd, if_pos reporting, unchanged]
  | _ => simp [isFault] at fault

/-- The run without the reports that fail has all the other moments, and each as it was. -/
theorem history_withoutFaults (symbolizer : Symbolizer Session)
    (operations : List (Operation Session)) :
    symbolizer.history (symbolizer.withoutFaults operations) =
      (symbolizer.history operations).filter (!·.isFault) := by
  induction operations generalizing symbolizer with
  | nil => rfl
  | cons operation operations induction =>
      have later := induction (symbolizer.perform operation)
      rw [withoutFaults_cons, history, List.filter_cons]
      cases fault : Moment.isFault ⟨symbolizer, operation⟩ with
      | true =>
          rw [Moment.perform_eq_of_isFault fault] at later ⊢
          exact later
      | false => exact congrArg (⟨symbolizer, operation⟩ :: ·) later

theorem run_withoutFaults (symbolizer : Symbolizer Session)
    (operations : List (Operation Session)) :
    symbolizer.run (symbolizer.withoutFaults operations) = symbolizer.run operations := by
  induction operations generalizing symbolizer with
  | nil => rfl
  | cons operation operations induction =>
      have later := induction (symbolizer.perform operation)
      rw [withoutFaults_cons]
      split
      · rename_i fault
        have unchanged : symbolizer.perform operation = symbolizer :=
          Moment.perform_eq_of_isFault fault
        calc symbolizer.run ((symbolizer.perform operation).withoutFaults operations)
            = (symbolizer.perform operation).run
                ((symbolizer.perform operation).withoutFaults operations) := by rw [unchanged]
          _ = (symbolizer.perform operation).run operations := later
      · exact later

/-- A report that fails shows neither in the session nor in any run. -/
structure ForgetsFaults (symbolizer : Symbolizer Session) : Prop where
  session_eq : ∀ (path : FilePath) (loadAddress : UInt64) (error : SymbolizeError),
    (DebugSession.reportModule symbolizer.session path loadAddress).1 = .error error →
      (DebugSession.reportModule symbolizer.session path loadAddress).2 = symbolizer.session
  /-- Without them every other operation meets the same symbolizer, so that a question gets the
  same answer. -/
  history_eq : ∀ operations : List (Operation Session),
    symbolizer.history (symbolizer.withoutFaults operations) =
      (symbolizer.history operations).filter (!·.isFault)
  run_eq : ∀ operations : List (Operation Session),
    symbolizer.run (symbolizer.withoutFaults operations) = symbolizer.run operations

theorem forgetsFaults (symbolizer : Symbolizer Session) : symbolizer.ForgetsFaults where
  session_eq _ _ _ failed := FaultProofSession.reportModule_of_error failed
  history_eq := symbolizer.history_withoutFaults
  run_eq := symbolizer.run_withoutFaults

end

/-- Over images as over modules given as values, no report that fails leaves a trace. -/
theorem forgetsFaults_of_session :
    (∀ symbolizer : Symbolizer ImageSession, symbolizer.ForgetsFaults) ∧
      ∀ symbolizer : Symbolizer InMemorySession, symbolizer.ForgetsFaults :=
  ⟨forgetsFaults, forgetsFaults⟩

/-- Of these operations only the report is left out. -/
example : ((new (ImageSession.new fun _ => .error .notFound)).withoutFaults
    [.beginReport, .report "libgone.so" 0, .endReport, .resolve 0x1000]).length = 3 := by
  cbv

end Symbolizer

end Symbolization
