import Symbolization.Proofs.Session.Renaming

/-!
# Batches that are given up

Reports show in no answer before their batch ends, and a batch that is given up for another one
leaves nothing behind but a gap in the numbers of the handles.  So all later answers are as they
would be had none of its reports been made, up to the handles that are given out from then on.
-/

namespace Symbolization

namespace ImageSession

namespace Request

def adds : Request → Bool
  | .reportModule _ _ => true
  | .reportImage _ => true
  | _ => false

/-- The requests but for those that report images. -/
def withoutReports (requests : List Request) : List Request :=
  requests.filter (!·.adds)

end Request

open Request (withoutReports)

/-- How many handles are given out while the requests are performed. -/
def handlesGiven (session : ImageSession) (requests : List Request) : Nat :=
  (session.run requests).lastHandle - session.lastHandle

variable {session : ImageSession} {requests : List Request}

theorem modules_run (session : ImageSession) (unended : .reportEnd ∉ requests) :
    (session.run requests).modules = session.modules := by
  induction requests generalizing session with
  | nil => rfl
  | cons request requests induction =>
      have notEnd : request ≠ .reportEnd := by
        rintro rfl
        exact unended (by simp)
      have later : .reportEnd ∉ requests := fun member => unended (by simp [member])
      exact (induction _ later).trans ((session.step_perform request).modules_eq notEnd)

theorem view_congr {left right : ImageSession} (same : left.modules = right.modules) :
    left.view = right.view := by
  cases left
  cases right
  cases same
  rfl

theorem files_withoutReports {left right : ImageSession} (same : left.files = right.files)
    (requests : List Request) :
    (left.run (withoutReports requests)).files = (right.run requests).files := by
  induction requests generalizing left right with
  | nil => exact same
  | cons request requests induction =>
      cases adds : request.adds with
      | true =>
          have remaining : withoutReports (request :: requests) = withoutReports requests := by
            simp [withoutReports, adds]
          have unchanged : request.filesAfter right.files = right.files := by
            cases request <;> first | rfl | contradiction
          rw [remaining]
          exact induction (same.trans ((right.files_perform request).trans unchanged).symm)
      | false =>
          have remaining : withoutReports (request :: requests) =
              request :: withoutReports requests := by
            simp [withoutReports, adds]
          rw [remaining]
          apply induction
          rw [left.files_perform, right.files_perform, same]

theorem Step.lastHandle_eq {request : Request} {next : ImageSession}
    (step : Step session request next) (addsNothing : request.adds = false) :
    next.lastHandle = session.lastHandle := by
  cases step with
  | read => contradiction
  | given => contradiction
  | _ => rfl

theorem lastHandle_withoutReports (session : ImageSession) (requests : List Request) :
    (session.run (withoutReports requests)).lastHandle = session.lastHandle := by
  have addNothing : ∀ request ∈ withoutReports requests, request.adds = false := by
    simp [withoutReports]
  generalize withoutReports requests = others at addNothing
  induction others generalizing session with
  | nil => rfl
  | cons request others induction =>
      have here := (session.step_perform request).lastHandle_eq (addNothing request (by simp))
      have later := induction (session.perform request)
        fun other member => addNothing other (by simp [member])
      exact later.trans here

theorem Orderly.rename_modules (orderly : session.Orderly) (count : Nat) :
    session.modules.map (·.rename (.shift session.lastHandle count)) = session.modules := by
  have unmoved : ∀ entry ∈ session.modules,
      entry.rename (.shift session.lastHandle count) = entry := by
    intro entry member
    rw [RegisteredImage.rename, ModuleHandle.shift_of_le (orderly.issued entry member).2]
  rw [List.map_congr_left unmoved, List.map_id']

/-- Where a new batch begins, all that reports of the one before leave behind is the numbers of
their handles. -/
theorem reportBegin_run (orderly : session.Orderly) (unended : .reportEnd ∉ requests) :
    (session.run requests).reportBegin =
      (session.run (withoutReports requests)).reportBegin.shift session.lastHandle
        (session.handlesGiven requests) := by
  have unendedToo : .reportEnd ∉ withoutReports requests :=
    fun member => unended (List.mem_filter.mp member).1
  have given : session.lastHandle + session.handlesGiven requests =
      (session.run requests).lastHandle :=
    Nat.add_sub_cancel' (session.lastHandle_le_run requests)
  have files : (session.run (withoutReports requests)).files = (session.run requests).files :=
    files_withoutReports rfl requests
  simp only [reportBegin, shift, Option.map_some, List.map_nil, modules_run session unended,
    modules_run session unendedToo, orderly.rename_modules, lastHandle_withoutReports, given, files]

/-- Reports show in no answer before their batch ends, and never if it is given up. -/
structure IsolatesBatches (session : ImageSession) : Prop where
  unanswered : ∀ requests, .reportEnd ∉ requests →
    (session.run requests).modules = session.modules ∧ (session.run requests).view = session.view
  /-- Whatever follows, all is as if the reports had not been made, but for the handles that are
  given out later. -/
  given_up : ∀ interrupted, .reportEnd ∉ interrupted → ∀ later,
    let change := ModuleHandle.shift session.lastHandle (session.handlesGiven interrupted)
    let without := session.run (withoutReports interrupted ++ .reportBegin :: later)
    let after := session.run (interrupted ++ .reportBegin :: later)
    after.modules = without.modules.map (·.rename change) ∧ without.view.Renames change after.view

/-- In every state of a session batches are isolated and can be given up. -/
theorem isolatesBatches_of_reachable (reachable : session.Reachable) :
    session.IsolatesBatches := by
  constructor
  · intro requests unended
    have unchanged := modules_run session unended
    exact ⟨unchanged, view_congr unchanged⟩
  · intro interrupted unended later change without after
    have same : after = without.shift session.lastHandle (session.handlesGiven interrupted) := by
      have issued : session.lastHandle ≤
          (session.run (withoutReports interrupted)).reportBegin.lastHandle :=
        Nat.le_of_eq (lastHandle_withoutReports session interrupted).symm
      calc after
        _ = (session.run interrupted).reportBegin.run later := session.run_append _ _
        _ = ((session.run (withoutReports interrupted)).reportBegin.run later).shift
              session.lastHandle (session.handlesGiven interrupted) := by
          rw [reportBegin_run reachable.orderly unended, run_shift issued]
        _ = without.shift session.lastHandle (session.handlesGiven interrupted) := by
          rw [show without = _ from session.run_append _ _]
          rfl
    rw [same]
    exact ⟨rfl, without.renames_shift _ _⟩

/-- Reports of a batch that is given up: of a new image, of the registered one and of none. -/
def givenUpReports : List Request :=
  [.reportImage (bareImage "libbaz.so" 0x3000 0x100), .reportModule "libfoo.so" 0x1000,
    .reportModule "libgone.so" 0]

def completedReports : List Request :=
  [.reportModule "libfoo.so" 0x1000, .reportImage (bareImage "libqux.so" 0x4000 0x100),
    .reportEnd]

theorem isolatesBatches_withReopenedBatch :
    withReopenedBatch.IsolatesBatches ∧
      (withReopenedBatch.run (givenUpReports ++ .reportBegin :: completedReports)).modules.map
        (·.handle) = [⟨1⟩, ⟨4⟩] ∧
      (withReopenedBatch.run (.reportBegin :: completedReports)).modules.map (·.handle) =
        [⟨1⟩, ⟨3⟩] := by
  have isolates := isolatesBatches_of_reachable
    ((Reachable.new fun _ => .error .notFound).run
      [.reportBegin, .reportImage (bareImage "libfoo.so" 0x1000 0x100), .reportEnd, .reportBegin,
        .reportImage (bareImage "libbar.so" 0x2000 0x100)])
  exact ⟨isolates, by cbv, by cbv⟩

end ImageSession

end Symbolization
