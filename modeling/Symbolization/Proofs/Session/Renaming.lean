import Symbolization.Proofs.Session.Requests
import Symbolization.Proofs.Session.SameImage
import Symbolization.Proofs.Session.Transfer

/-!
# Sessions whose later handles have other numbers

A session that gave out more handles than another one goes on giving out handles of greater numbers.
The numbers are all that differs between the two: whatever is requested of both, they stay the same
but for the handles from some point on.
-/

namespace Symbolization

/-- The handle that stands for another one where `count` handles more were given out behind the one
with the number `last`. -/
def ModuleHandle.shift (last count : Nat) (handle : ModuleHandle) : ModuleHandle :=
  if handle.number ≤ last then handle else ⟨handle.number + count⟩

namespace ModuleHandle

variable {last count : Nat}

theorem shift_of_le {handle : ModuleHandle} (issued : handle.number ≤ last) :
    handle.shift last count = handle :=
  if_pos issued

theorem shift_of_lt {handle : ModuleHandle} (later : last < handle.number) :
    handle.shift last count = ⟨handle.number + count⟩ :=
  if_neg (Nat.not_le.mpr later)

theorem shift_injective : Function.Injective (shift last count) := by
  intro left right same
  unfold shift at same
  split at same <;> split at same <;> cases left <;> cases right <;>
    simp only [mk.injEq] at * <;> omega

end ModuleHandle

def RegisteredImage.rename (change : ModuleHandle → ModuleHandle) (entry : RegisteredImage) :
    RegisteredImage :=
  { entry with handle := change entry.handle }

theorem RegisteredImage.transfers_rename {change : ModuleHandle → ModuleHandle}
    (injective : Function.Injective change) : Transfers change (·.rename change) where
  injective := injective
  handle _ := rfl
  isOf _ _ _ := rfl
  start _ := rfl
  has _ _ := rfl

def Reported.rename (change : ModuleHandle → ModuleHandle) : Reported → Reported
  | .kept handle => .kept (change handle)
  | .loaded entry => .loaded (entry.rename change)

theorem Reported.rename_eq_map (change : ModuleHandle → ModuleHandle) :
    rename change = map change (·.rename change) := by
  funext reported
  cases reported <;> rfl

/-- The right view answers what the left one does, but for the handles. -/
structure DebugView.Renames (change : ModuleHandle → ModuleHandle) (left right : DebugView) :
    Prop where
  injective : Function.Injective change
  moduleAt : ∀ address, right.moduleAt address = (left.moduleAt address).map change
  mirrors : ∀ module, left.Mirrors module right (change module)
  /-- Nothing is under the handles that none was changed to. -/
  absent : ∀ other, (∀ module, change module ≠ other) → right.Absent other

namespace ImageSession

/-- The session as it were if `count` handles more had been given out behind the one with the number
`last`. -/
def shift (last count : Nat) (session : ImageSession) : ImageSession where
  files := session.files
  modules := session.modules.map (·.rename (.shift last count))
  batch := session.batch.map fun batch => batch.map (·.rename (.shift last count))
  lastHandle := session.lastHandle + count

section

variable (session : ImageSession) (last count : Nat)

theorem transfers_shift :
    RegisteredImage.Transfers (.shift last count) (·.rename (.shift last count)) :=
  RegisteredImage.transfers_rename ModuleHandle.shift_injective

theorem pending?_shift (batch : List Reported) (path : FilePath) (loadAddress : UInt64) :
    (session.shift last count).pending? (batch.map (·.rename (.shift last count))) path
        loadAddress =
      (session.pending? batch path loadAddress).map (.shift last count) := by
  rw [Reported.rename_eq_map]
  exact (transfers_shift last count).pending?_eq rfl batch path loadAddress

theorem registered?_shift (path : FilePath) (loadAddress : UInt64) :
    (session.shift last count).registered? path loadAddress =
      (session.registered? path loadAddress).map (.shift last count) :=
  (transfers_shift last count).registered?_eq rfl path loadAddress

theorem commit_shift (batch : List Reported) :
    (session.shift last count).commit (batch.map (·.rename (.shift last count))) =
      (session.commit batch).map (·.rename (.shift last count)) := by
  rw [Reported.rename_eq_map]
  exact (transfers_shift last count).commit_eq rfl batch

theorem moduleAt_shift (address : UInt64) :
    (session.shift last count).moduleAt address =
      (session.moduleAt address).map (.shift last count) :=
  (transfers_shift last count).moduleAt_eq rfl address

theorem image?_shift (handle : ModuleHandle) :
    (session.shift last count).image? (handle.shift last count) = session.image? handle := by
  rw [image?, shift, (transfers_shift last count).find?_map, Option.map_map, image?]
  rfl

theorem absent_shift {other : ModuleHandle}
    (unused : ∀ module, ModuleHandle.shift last count module ≠ other) :
    (session.shift last count).view.Absent other := by
  apply absent_of_image?
  rw [image?, Option.map_eq_none_iff, List.find?_eq_none]
  intro entry member named
  obtain ⟨known, _, rfl⟩ := List.mem_map.mp member
  exact unused known.handle (beq_iff_eq.mp named)

theorem renames_shift :
    session.view.Renames (.shift last count) (session.shift last count).view where
  injective := ModuleHandle.shift_injective
  moduleAt := session.moduleAt_shift last count
  mirrors module := mirrors_of_image? (session.image?_shift last count module)
  absent _ unused := session.absent_shift last count unused

end

section

variable {session : ImageSession} {last : Nat}

theorem batch_shift {batch : List Reported} (isOpen : session.batch = some batch)
    (last count : Nat) :
    (session.shift last count).batch = some (batch.map (·.rename (.shift last count))) := by
  rw [shift, isOpen, Option.map_some]

theorem nextEntry_shift (issued : last ≤ session.lastHandle) (count : Nat) (image : Image) :
    (session.shift last count).nextEntry image =
      (session.nextEntry image).rename (.shift last count) := by
  have later : last < session.lastHandle + 1 := Nat.lt_succ_of_le issued
  simp only [nextEntry, shift, RegisteredImage.rename, ModuleHandle.shift_of_lt later,
    Nat.add_right_comm]

theorem withImage_shift (issued : last ≤ session.lastHandle) (count : Nat) (batch : List Reported)
    (image : Image) :
    (session.shift last count).withImage (batch.map (·.rename (.shift last count))) image =
      (session.withImage batch image).shift last count := by
  simp only [withImage, nextEntry_shift issued count]
  simp only [shift, Option.map_some, List.map_append, List.map_cons, List.map_nil,
    Reported.rename, Nat.add_right_comm]

theorem reportImage_shift (issued : last ≤ session.lastHandle) (count : Nat) (image : Image) :
    ((session.shift last count).reportImage image).2 =
      (session.reportImage image).2.shift last count := by
  cases isOpen : session.batch with
  | none => simp only [reportImage, shift, isOpen, Option.map_none]
  | some batch =>
      have shifted := batch_shift isOpen last count
      rw [reportImage_eq shifted, reportImage_eq isOpen]
      exact withImage_shift issued count batch image

theorem reportModule_shift (issued : last ≤ session.lastHandle) (count : Nat) (path : FilePath)
    (loadAddress : UInt64) :
    ((session.shift last count).reportModule path loadAddress).2 =
      (session.reportModule path loadAddress).2.shift last count := by
  cases isOpen : session.batch with
  | none => simp only [reportModule, shift, isOpen, Option.map_none]
  | some batch =>
      have shifted := batch_shift isOpen last count
      have pending := session.pending?_shift last count batch path loadAddress
      have registered := session.registered?_shift last count path loadAddress
      cases pendingEq : session.pending? batch path loadAddress with
      | some handle =>
          rw [pendingEq] at pending
          rw [reportModule_of_pending shifted pending, reportModule_of_pending isOpen pendingEq]
      | none =>
          rw [pendingEq] at pending
          cases registeredEq : session.registered? path loadAddress with
          | some handle =>
              rw [registeredEq] at registered
              rw [reportModule_of_registered shifted pending registered,
                reportModule_of_registered isOpen pendingEq registeredEq]
              simp [shift, Reported.rename]
          | none =>
              rw [registeredEq] at registered
              cases loaded : Image.load session.files path loadAddress with
              | error error =>
                  rw [reportModule_of_fault shifted pending registered loaded,
                    reportModule_of_fault isOpen pendingEq registeredEq loaded]
              | ok image =>
                  rw [reportModule_of_read shifted pending registered loaded,
                    reportModule_of_read isOpen pendingEq registeredEq loaded]
                  exact withImage_shift issued count batch image

theorem reportEnd_shift (session : ImageSession) (last count : Nat) :
    (session.shift last count).reportEnd.2 = session.reportEnd.2.shift last count := by
  cases isOpen : session.batch with
  | none => simp only [reportEnd, shift, isOpen, Option.map_none]
  | some batch =>
      have shifted := batch_shift isOpen last count
      rw [reportEnd_snd shifted, reportEnd_snd isOpen, commit_shift]
      rfl

/-- What one session does, the other one does under its handles. -/
theorem perform_shift (issued : last ≤ session.lastHandle) (count : Nat) (request : Request) :
    (session.shift last count).perform request = (session.perform request).shift last count := by
  cases request with
  | reportBegin => rfl
  | reportModule path loadAddress => exact reportModule_shift issued count path loadAddress
  | reportImage image => exact reportImage_shift issued count image
  | reportEnd => exact reportEnd_shift session last count
  | replaceFiles files => rfl

theorem run_shift (issued : last ≤ session.lastHandle) (count : Nat) (requests : List Request) :
    (session.shift last count).run requests = (session.run requests).shift last count := by
  induction requests generalizing session with
  | nil => rfl
  | cons request requests induction =>
      have later := issued.trans (lastHandle_le_of_step (session.step_perform request))
      exact (congrArg (run · requests) (perform_shift issued count request)).trans (induction later)

end

end ImageSession

end Symbolization
