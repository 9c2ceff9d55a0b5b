import Mathlib
import Symbolization.Proofs.Session.Orderly

/-!
# Images by their paths

A path at a load address that is registered or pending already is not reported anew.  So a session
that gets its images by their paths has none of them twice, however its batches are begun, given up
and completed.
-/

namespace Symbolization

namespace ImageSession

namespace Request

/-- Whether images come by their paths if at all. -/
def isByPath : Request → Bool
  | .reportImage _ => false
  | _ => true

end Request

/-- No image is registered twice, and the open batch has none twice. -/
structure Unrepeated (session : ImageSession) : Prop where
  registered : (session.modules.map (·.origin)).Nodup
  reported : ∀ batch ∈ session.batch,
    ((batch.filterMap (standsFor? session.modules)).map (·.origin)).Nodup

namespace Unrepeated

variable {session : ImageSession}

theorem new (files : FileSource) : Unrepeated (.new files) := by
  constructor <;> simp [ImageSession.new]

theorem step (unrepeated : session.Unrepeated) (orderly : session.Orderly) {request : Request}
    {next : ImageSession} (byPath : request.isByPath) (step : Step session request next) :
    next.Unrepeated := by
  cases step with
  | idle files => exact ⟨unrepeated.registered, unrepeated.reported⟩
  | opened =>
      refine ⟨unrepeated.registered, ?_⟩
      rintro batch ⟨⟩
      exact List.nodup_nil
  | @kept path loadAddress batch entry isOpen notPending member isOf =>
      refine ⟨unrepeated.registered, ?_⟩
      rintro longer ⟨⟩
      exact nodup_origin_append (unrepeated.reported batch isOpen) notPending
        (orderly.standsFor?_kept member) isOf
  | @read path loadAddress batch image isOpen notPending notRegistered loaded =>
      refine ⟨unrepeated.registered, ?_⟩
      rintro longer ⟨⟩
      exact nodup_origin_append (unrepeated.reported batch isOpen) notPending rfl
        (isOf_nextEntry loaded)
  | given => contradiction
  | @ended batch isOpen =>
      refine ⟨?_, by simp⟩
      have moved := moveOver_eq_filterMap orderly.distinct (orderly.batch batch isOpen).once
      rw [((session.stablySorted_commit batch).perm.map _).nodup_iff, moved]
      exact unrepeated.reported batch isOpen

theorem run (unrepeated : session.Unrepeated) (orderly : session.Orderly)
    {requests : List Request} (byPath : ∀ request ∈ requests, request.isByPath) :
    (session.run requests).Unrepeated := by
  induction requests generalizing session with
  | nil => exact unrepeated
  | cons request requests induction =>
      have step := session.step_perform request
      apply induction (unrepeated.step orderly (byPath request (by simp)) step)
      · exact orderly.step step
      · intro later member
        exact byPath later (by simp [member])

end Unrepeated

/-- In every state of a session all is in order, and nothing is there twice as long as images come
by their paths. -/
theorem orderly_and_unrepeated_run (files : FileSource) (requests : List Request) :
    (run (.new files) requests).Orderly ∧
      ((∀ request ∈ requests, request.isByPath) → (run (.new files) requests).Unrepeated) := by
  constructor
  · exact (Orderly.new files).run requests
  · intro byPath
    exact (Unrepeated.new files).run (.new files) byPath

def segmentFile : ByteArray :=
  ⟨#[0x7f, 0x45, 0x4c, 0x46, 1, 1, 1, 0, 0, 0, 0, 0, 0, 0, 0, 0,
    2, 0, 3, 0, 1, 0, 0, 0, 0, 0, 0, 0, 0x34, 0, 0, 0, 0, 0, 0, 0, 0, 0, 0, 0, 0x34, 0,
    0x20, 0, 1, 0, 0, 0, 0, 0, 0, 0,
    1, 0, 0, 0, 0, 0, 0, 0, 0, 0x10, 0, 0, 0, 0, 0, 0, 0, 0, 0, 0, 0, 1, 0, 0,
    5, 0, 0, 0, 0, 0x10, 0, 0]⟩

def segmentFiles : FileSource := fun path =>
  if path = "libgone.so" then .error .notFound else .ok segmentFile

/-- Reports that fail, repeat themselves, keep an image and read one at another address. -/
def pathRequests : List Request :=
  [.reportModule "libfoo.so" 0, .reportBegin, .reportModule "libfoo.so" 0x400000,
    .reportModule "libfoo.so" 0x400000, .reportModule "libgone.so" 0,
    .reportModule "libbar.so" 0x200000, .reportEnd, .reportBegin,
    .reportModule "libbar.so" 0x200000, .reportModule "libfoo.so" 0x800000]

theorem unrepeated_pathRequests :
    (run (.new segmentFiles) pathRequests).Unrepeated ∧
      (run (.new segmentFiles) pathRequests).modules.map (·.origin) =
        [("libbar.so", 0x200000), ("libfoo.so", 0x400000)] ∧
      (run (.new segmentFiles) pathRequests).lastHandle = 3 := by
  refine ⟨?_, by cbv, by cbv⟩
  apply (orderly_and_unrepeated_run segmentFiles pathRequests).2
  decide

end ImageSession

end Symbolization
