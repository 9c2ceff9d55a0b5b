import Symbolization.Proofs.Order.Search
import Symbolization.Session.ImageSession

/-!
# Sessions whose images correspond

The images of one session may be those of another one, each with something changed that does not
matter to where it is and where it came from.  Reports find the images that correspond, batches end
with them in the same order, and an address lies in the ones that correspond.
-/

namespace Symbolization

/-- A change of images and of their handles that leaves them where they are. -/
structure RegisteredImage.Transfers (change : ModuleHandle → ModuleHandle)
    (move : RegisteredImage → RegisteredImage) : Prop where
  injective : Function.Injective change
  handle : ∀ entry, (move entry).handle = change entry.handle
  isOf : ∀ entry path loadAddress, (move entry).isOf path loadAddress = entry.isOf path loadAddress
  start : ∀ entry, (move entry).image.start = entry.image.start
  has : ∀ entry address, (move entry).image.has address = entry.image.has address

/-- The report with its image changed in one way and a handle that it keeps in another. -/
def Reported.map (change : ModuleHandle → ModuleHandle)
    (move : RegisteredImage → RegisteredImage) : Reported → Reported
  | .kept handle => .kept (change handle)
  | .loaded entry => .loaded (move entry)

namespace RegisteredImage.Transfers

variable {change : ModuleHandle → ModuleHandle} {move : RegisteredImage → RegisteredImage}
  (transfers : Transfers change move)
include transfers

theorem beq_handle (entry : RegisteredImage) (handle : ModuleHandle) :
    ((move entry).handle == change handle) = (entry.handle == handle) := by
  rw [transfers.handle]
  simp [transfers.injective.eq_iff]

theorem find?_map (entries : List RegisteredImage) (handle : ModuleHandle) :
    (entries.map move).find? (·.handle == change handle) =
      (entries.find? (·.handle == handle)).map move := by
  rw [List.find?_map]
  congr 2
  exact funext (transfers.beq_handle · handle)

theorem findIdx_map (entries : List RegisteredImage) (handle : ModuleHandle) :
    (entries.map move).findIdx (·.handle == change handle) =
      entries.findIdx (·.handle == handle) := by
  rw [List.findIdx_map]
  congr 1
  exact funext (transfers.beq_handle · handle)

/-- Images that are changed alike in the batch and before it are moved over alike. -/
theorem moveOver_map (previous : List RegisteredImage) (batch : List Reported) :
    ImageSession.moveOver (previous.map move) (batch.map (·.map change move)) =
      (ImageSession.moveOver previous batch).map move := by
  have takeOut_map : ∀ entries index, ImageSession.takeOut (entries.map move) index =
      (ImageSession.takeOut entries index).map move := by
    intro entries index
    unfold ImageSession.takeOut
    cases last : entries.getLast? <;> simp [last, List.map_set, List.map_dropLast]
  fun_induction ImageSession.moveOver previous batch with
  | case1 => rfl
  | case2 previous entry batch induction =>
      rw [List.map_cons, Reported.map, ImageSession.moveOver, induction, List.map_cons]
  | case3 previous handle batch missed induction =>
      rw [List.map_cons, Reported.map, ImageSession.moveOver, transfers.find?_map, missed]
      exact induction
  | case4 previous handle batch entry found induction =>
      rw [List.map_cons, Reported.map, ImageSession.moveOver, transfers.find?_map, found]
      simp only [Option.map_some, transfers.findIdx_map, takeOut_map, induction, List.map_cons]

section

variable {left right : ImageSession} (modules : right.modules = left.modules.map move)
include modules

theorem covers_eq (path : FilePath) (loadAddress : UInt64) (reported : Reported) :
    right.covers path loadAddress (reported.map change move) =
      left.covers path loadAddress reported := by
  cases reported with
  | loaded entry => exact transfers.isOf entry path loadAddress
  | kept handle =>
      simp only [Reported.map, ImageSession.covers, modules, List.any_map]
      congr 1
      funext entry
      simp only [Function.comp, transfers.beq_handle, transfers.isOf]

theorem pending?_eq (batch : List Reported) (path : FilePath) (loadAddress : UInt64) :
    right.pending? (batch.map (·.map change move)) path loadAddress =
      (left.pending? batch path loadAddress).map change := by
  have covers : right.covers path loadAddress ∘ (·.map change move) =
      left.covers path loadAddress :=
    funext (transfers.covers_eq modules path loadAddress)
  rw [ImageSession.pending?, List.find?_map, covers, ImageSession.pending?, Option.map_map,
    Option.map_map]
  congr 1
  funext reported
  cases reported with
  | kept handle => rfl
  | loaded entry => exact transfers.handle entry

theorem registered?_eq (path : FilePath) (loadAddress : UInt64) :
    right.registered? path loadAddress = (left.registered? path loadAddress).map change := by
  have same : (fun entry : RegisteredImage => entry.isOf path loadAddress) ∘ move =
      (·.isOf path loadAddress) :=
    funext (transfers.isOf · path loadAddress)
  rw [ImageSession.registered?, modules, List.find?_map, same, ImageSession.registered?,
    Option.map_map, Option.map_map]
  congr 1
  exact funext transfers.handle

theorem commit_eq (batch : List Reported) :
    right.commit (batch.map (·.map change move)) = (left.commit batch).map move := by
  rw [ImageSession.commit, modules, transfers.moveOver_map, ImageSession.commit]
  symm
  apply List.map_mergeSort
  intro first _ second _
  rw [transfers.start, transfers.start]

theorem moduleAt_eq (address : UInt64) :
    right.moduleAt address = (left.moduleAt address).map change := by
  have starts : (fun entry : RegisteredImage => entry.image.start) ∘ move = (·.image.start) :=
    funext transfers.start
  have holds : (fun entry : RegisteredImage => entry.image.has address) ∘ move =
      (·.image.has address) :=
    funext (transfers.has · address)
  rw [ImageSession.moduleAt, modules, lastUpTo?_map, starts, holds, ImageSession.moduleAt,
    Option.map_map, Option.map_map]
  congr 1
  exact funext transfers.handle

end

end RegisteredImage.Transfers

end Symbolization
