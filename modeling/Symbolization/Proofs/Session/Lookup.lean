import Symbolization.Proofs.Order.Search
import Symbolization.Proofs.Session.BatchEnd

/-!
# Looking up the image at an address

The registered images stand in the order of their starts, but they may overlap and hold one another,
and several may start at one address.  The search among them chooses as a scan of the last completed
batch would: the image that holds the address and starts last, and of several that start there the
one that was reported last.
-/

namespace Symbolization

namespace ImageSession

/-- The images of the last completed batch in the order of its reports, after a request when they
were `known` before.  A report of an image that the batch has already is none of them. -/
def reportedAfter (session : ImageSession) (known : List RegisteredImage) :
    Request → List RegisteredImage
  | .reportEnd =>
    match session.batch with
    | none => known
    | some batch => batch.filterMap (standsFor? session.modules)
  | _ => known

/-- The images of the last batch that the requests complete, or `known` if they complete none. -/
def lastReported (session : ImageSession) (known : List RegisteredImage) :
    List Request → List RegisteredImage
  | [] => known
  | request :: requests =>
    (session.perform request).lastReported (session.reportedAfter known request) requests

/-- The session is in order and has registered the images that were reported. -/
structure Registers (session : ImageSession) (reported : List RegisteredImage) : Prop where
  orderly : session.Orderly
  stably : StablySorted RegisteredImage.start reported session.modules

namespace Registers

variable {session : ImageSession} {reported : List RegisteredImage}

theorem new (files : FileSource) : (ImageSession.new files).Registers [] where
  orderly := .new files
  stably := ⟨.refl _, .nil, fun _ => rfl⟩

theorem reportEnd (registers : session.Registers reported) :
    StablySorted RegisteredImage.start (session.reportedAfter reported .reportEnd)
      session.reportEnd.2.modules := by
  cases isOpen : session.batch with
  | none =>
      simp only [ImageSession.reportEnd, reportedAfter, isOpen]
      exact registers.stably
  | some batch =>
      have once := (registers.orderly.batch batch isOpen).once
      simp only [reportEnd_snd isOpen, reportedAfter, isOpen]
      rw [← moveOver_eq_filterMap registers.orderly.distinct once]
      exact session.stablySorted_commit batch

theorem step (registers : session.Registers reported) (request : Request) :
    (session.perform request).Registers (session.reportedAfter reported request) := by
  have step := session.step_perform request
  refine ⟨registers.orderly.step step, ?_⟩
  by_cases atEnd : request = .reportEnd
  · subst request
    exact registers.reportEnd
  · have unchanged : session.reportedAfter reported request = reported := by
      cases request with
      | reportEnd => contradiction
      | _ => rfl
    rw [step.modules_eq atEnd, unchanged]
    exact registers.stably

theorem run (registers : session.Registers reported) (requests : List Request) :
    (session.run requests).Registers (session.lastReported reported requests) := by
  induction requests generalizing session reported with
  | nil => exact registers
  | cons request requests induction => exact induction (registers.step request)

end Registers

/-- What is found at an address is what a scan of all images would choose. -/
structure ScansFor (session : ImageSession) (reported : List RegisteredImage) (address : UInt64) :
    Prop where
  all : reported.Perm session.modules
  isSome_iff : (session.moduleAt address).isSome ↔
    ∃ entry ∈ session.modules, entry.image.has address
  latest : ∀ handle, session.moduleAt address = some handle →
    ∃ entry, IsLatest RegisteredImage.start (·.image.has address) reported entry ∧
      entry.handle = handle
  /-- Where no two images share an address there is but one to be found. -/
  only : (session.modules.Pairwise fun first second => ¬ first.image.Shares second.image) →
    ∀ entry ∈ session.modules, entry.image.has address →
      session.moduleAt address = some entry.handle

theorem has_start_le {entry : RegisteredImage} {address : UInt64}
    (holds : entry.image.has address) : entry.start ≤ address :=
  (Image.has_iff.mp holds).1

theorem Registers.scansFor {session : ImageSession} {reported : List RegisteredImage}
    (registers : session.Registers reported) (address : UInt64) :
    session.ScansFor reported address := by
  have stably := registers.stably
  have within : ∀ entry ∈ session.modules, entry.image.has address → entry.start ≤ address :=
    fun _ _ holds => has_start_le holds
  have isSome_iff : (session.moduleAt address).isSome ↔
      ∃ entry ∈ session.modules, entry.image.has address := by
    rw [moduleAt, Option.isSome_map]
    exact stably.isSome_lastUpTo?_iff within
  refine ⟨stably.perm.symm, isSome_iff, ?_, ?_⟩
  · intro handle found
    obtain ⟨entry, searched, rfl⟩ := Option.map_eq_some_iff.mp found
    exact ⟨entry, stably.isLatest_of_lastUpTo? within searched, rfl⟩
  · intro apart entry member holds
    obtain ⟨handle, found⟩ := Option.isSome_iff_exists.mp (isSome_iff.mpr ⟨entry, member, holds⟩)
    obtain ⟨other, searched, rfl⟩ := Option.map_eq_some_iff.mp found
    obtain ⟨otherMember, otherHolds⟩ := mem_of_lastUpTo? searched
    by_cases same : entry = other
    · rw [found, same]
    · have symmetric : Std.Symm fun first second : RegisteredImage =>
          ¬ first.image.Shares second.image :=
        ⟨fun _ _ disjoint shares => disjoint shares.symm⟩
      exact absurd ⟨address, holds, otherHolds⟩ (apart.forall member otherMember same)

/-- In every state of a session the search for an address finds an image exactly if some registered
image holds it, and then the one that starts last and was reported last of those. -/
theorem scansFor_run (files : FileSource) (requests : List Request) (address : UInt64) :
    (run (.new files) requests).ScansFor (lastReported (.new files) [] requests) address :=
  ((Registers.new files).run requests).scansFor address

/-- The large image holds the small ones, of which two start at one address. -/
example :
    let session := run (.new fun _ => .error .notFound)
      [.reportBegin, .reportImage (bareImage "libbar.so" 0x1800 0x10),
        .reportImage (bareImage "libfoo.so" 0x1000 0x1000),
        .reportImage (bareImage "libbaz.so" 0x1800 0x20), .reportEnd]
    session.moduleAt 0x1808 = some ⟨3⟩ ∧ session.moduleAt 0x1820 = some ⟨2⟩ := by
  constructor <;> cbv

end ImageSession

end Symbolization
