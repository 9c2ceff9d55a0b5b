import Symbolization.Proofs.Order.StableSort
import Symbolization.Proofs.Session.MoveOver
import Symbolization.Proofs.Session.Requests
import Mathlib.Data.List.Forall2
import Mathlib.Data.List.Permutation

/-!
# Order in a session

Whatever is asked of a session, its registered images stand in the order of their starts, no handle
names two images, and every report of the open batch has a handle of its own: one that is registered
if the report keeps an image, and one that is not if it adds an image.  Where images come by their
paths only, no image is there twice either.
-/

namespace Symbolization

/-- The handle was given out when the last one had the number `last`. -/
def ModuleHandle.IsIssued (handle : ModuleHandle) (last : Nat) : Prop :=
  1 ≤ handle.number ∧ handle.number ≤ last

theorem ModuleHandle.IsIssued.mono {handle : ModuleHandle} {first last : Nat}
    (issued : handle.IsIssued first) (le : first ≤ last) : handle.IsIssued last :=
  ⟨issued.1, issued.2.trans le⟩

/-- The told path and the load address of an image. -/
def RegisteredImage.origin (entry : RegisteredImage) : String × UInt64 :=
  (entry.image.name, entry.image.bias)

def RegisteredImage.start (entry : RegisteredImage) : UInt64 := entry.image.start

theorem RegisteredImage.isOf_iff {entry : RegisteredImage} {path : FilePath}
    {loadAddress : UInt64} :
    entry.isOf path loadAddress ↔ entry.origin = (path.told, loadAddress) := by
  simp [isOf, origin]

namespace ImageSession

theorem covers_of_standsFor? {session : ImageSession} {path : FilePath} {loadAddress : UInt64}
    {reported : Reported} {entry : RegisteredImage}
    (stands : standsFor? session.modules reported = some entry)
    (isOf : entry.isOf path loadAddress) : session.covers path loadAddress reported := by
  cases reported with
  | kept handle =>
      have named := handle_of_standsFor? stands
      rw [covers, List.any_eq_true]
      refine ⟨entry, List.mem_of_find?_eq_some stands, ?_⟩
      rw [Bool.and_eq_true, beq_iff_eq]
      exact ⟨named, isOf⟩
  | loaded loaded =>
      cases stands
      exact isOf

/-- The reports of a batch that does not have an image are for other images. -/
theorem not_isOf_of_pending? {session : ImageSession} {batch : List Reported} {path : FilePath}
    {loadAddress : UInt64} (notPending : session.pending? batch path loadAddress = none)
    {reported : Reported} (member : reported ∈ batch) {entry : RegisteredImage}
    (stands : standsFor? session.modules reported = some entry) :
    ¬ entry.isOf path loadAddress := by
  intro isOf
  have missed := List.find?_eq_none.mp (Option.map_eq_none_iff.mp notPending) reported member
  exact missed (covers_of_standsFor? stands isOf)

/-- A report of an image that the batch does not have leaves the batch without repetition. -/
theorem nodup_origin_append {session : ImageSession} {batch : List Reported} {path : FilePath}
    {loadAddress : UInt64}
    (once : ((batch.filterMap (standsFor? session.modules)).map (·.origin)).Nodup)
    (notPending : session.pending? batch path loadAddress = none) {reported : Reported}
    {entry : RegisteredImage} (stands : standsFor? session.modules reported = some entry)
    (isOf : entry.isOf path loadAddress) :
    (((batch ++ [reported]).filterMap (standsFor? session.modules)).map (·.origin)).Nodup := by
  rw [List.filterMap_append, List.map_append, List.nodup_append, List.filterMap_cons_some stands]
  refine ⟨once, List.nodup_singleton _, ?_⟩
  intro origin earlier other isLast
  obtain ⟨former, member, rfl⟩ := List.mem_map.mp earlier
  cases List.mem_singleton.mp isLast
  obtain ⟨report, inBatch, formerStands⟩ := List.mem_filterMap.mp member
  have different := not_isOf_of_pending? notPending inBatch formerStands
  rwa [RegisteredImage.isOf_iff, ← RegisteredImage.isOf_iff.mp isOf] at different

/-- The reports of a batch have handles of their own. -/
structure OrderlyBatch (registered : List RegisteredImage) (last : Nat) (batch : List Reported) :
    Prop where
  once : (batch.map Reported.handle).Nodup
  kept_registered : ∀ handle, .kept handle ∈ batch →
    ∃ entry ∈ registered, entry.handle = handle
  loaded_fresh : ∀ entry, .loaded entry ∈ batch →
    ∀ other ∈ registered, other.handle ≠ entry.handle
  loaded_issued : ∀ entry, .loaded entry ∈ batch → entry.handle.IsIssued last

/-- A session in which all is in order. -/
structure Orderly (session : ImageSession) : Prop where
  sorted : session.modules.Pairwise fun first second => first.image.start ≤ second.image.start
  distinct : (session.modules.map (·.handle)).Nodup
  issued : ∀ entry ∈ session.modules, entry.handle.IsIssued session.lastHandle
  batch : ∀ batch ∈ session.batch, OrderlyBatch session.modules session.lastHandle batch

namespace OrderlyBatch

variable {registered : List RegisteredImage} {last : Nat} {batch : List Reported}

theorem nil : OrderlyBatch registered last [] := by
  constructor <;> simp

theorem isIssued (orderly : OrderlyBatch registered last batch)
    (issued : ∀ entry ∈ registered, entry.handle.IsIssued last) {reported : Reported}
    (member : reported ∈ batch) : reported.handle.IsIssued last := by
  cases reported with
  | kept handle =>
      obtain ⟨entry, known, rfl⟩ := orderly.kept_registered handle member
      exact issued entry known
  | loaded entry => exact orderly.loaded_issued entry member

theorem keep (orderly : OrderlyBatch registered last batch) {entry : RegisteredImage}
    (known : entry ∈ registered) (unseen : .kept entry.handle ∉ batch) :
    OrderlyBatch registered last (batch ++ [.kept entry.handle]) := by
  constructor
  · rw [List.map_append, List.nodup_append]
    refine ⟨orderly.once, List.nodup_singleton _, ?_⟩
    intro handle earlier other isLast
    obtain ⟨reported, member, rfl⟩ := List.mem_map.mp earlier
    cases List.mem_singleton.mp isLast
    cases reported with
    | kept handle =>
        rintro rfl
        exact unseen member
    | loaded loaded => exact (orderly.loaded_fresh loaded member entry known).symm
  · intro handle member
    rcases List.mem_append.mp member with earlier | isLast
    · exact orderly.kept_registered handle earlier
    · cases List.mem_singleton.mp isLast
      exact ⟨entry, known, rfl⟩
  · intro loaded member
    exact orderly.loaded_fresh loaded (by simpa using member)
  · intro loaded member
    exact orderly.loaded_issued loaded (by simpa using member)

theorem load (orderly : OrderlyBatch registered last batch)
    (issued : ∀ entry ∈ registered, entry.handle.IsIssued last) (image : Image) :
    OrderlyBatch registered (last + 1) (batch ++ [.loaded ⟨⟨last + 1⟩, image⟩]) := by
  have beyond : ∀ {handle : ModuleHandle}, handle.IsIssued last → handle ≠ ⟨last + 1⟩ := by
    rintro handle ⟨-, bound⟩ rfl
    exact Nat.not_succ_le_self last bound
  constructor
  · rw [List.map_append, List.nodup_append]
    refine ⟨orderly.once, List.nodup_singleton _, ?_⟩
    intro handle earlier other isLast
    obtain ⟨reported, member, rfl⟩ := List.mem_map.mp earlier
    cases List.mem_singleton.mp isLast
    exact beyond (orderly.isIssued issued member)
  · intro handle member
    exact orderly.kept_registered handle (by simpa using member)
  · intro entry member other known
    rcases List.mem_append.mp member with earlier | isLast
    · exact orderly.loaded_fresh entry earlier other known
    · cases List.mem_singleton.mp isLast
      exact beyond (issued other known)
  · intro entry member
    rcases List.mem_append.mp member with earlier | isLast
    · exact (orderly.loaded_issued entry earlier).mono (Nat.le_succ last)
    · cases List.mem_singleton.mp isLast
      exact ⟨Nat.le_add_left 1 last, Nat.le_refl _⟩

/-- Every report of the batch, in its order, finds its image among those that are moved over. -/
theorem forall₂_moveOver (orderly : OrderlyBatch registered last batch)
    (distinct : (registered.map (·.handle)).Nodup) :
    List.Forall₂ (fun reported entry => standsFor? registered reported = some entry) batch
      (moveOver registered batch) := by
  rw [moveOver_eq_filterMap distinct orderly.once]
  have found : ∀ reported ∈ batch, (standsFor? registered reported).isSome := by
    intro reported member
    cases reported with
    | kept handle =>
        obtain ⟨entry, known, named⟩ := orderly.kept_registered handle member
        rw [standsFor?, (find?_handle_eq_some_iff distinct).mpr ⟨known, named⟩]
        rfl
    | loaded entry => rfl
  clear orderly
  induction batch with
  | nil => exact .nil
  | cons reported batch induction =>
      obtain ⟨entry, stands⟩ := Option.isSome_iff_exists.mp (found reported (by simp))
      rw [List.filterMap_cons_some stands]
      exact .cons stands (induction fun other member => found other (by simp [member]))

theorem map_handle_moveOver (orderly : OrderlyBatch registered last batch)
    (distinct : (registered.map (·.handle)).Nodup) :
    (moveOver registered batch).map (·.handle) = batch.map Reported.handle := by
  have stands := orderly.forall₂_moveOver distinct
  generalize moveOver registered batch = entries at stands
  clear orderly
  induction stands with
  | nil => rfl
  | cons first _ induction =>
      rw [List.map_cons, List.map_cons, induction, handle_of_standsFor? first]

theorem mem_moveOver_iff (orderly : OrderlyBatch registered last batch)
    (distinct : (registered.map (·.handle)).Nodup) {entry : RegisteredImage} :
    entry ∈ moveOver registered batch ↔
      ∃ reported ∈ batch, standsFor? registered reported = some entry := by
  rw [moveOver_eq_filterMap distinct orderly.once, List.mem_filterMap]

end OrderlyBatch

theorem stablySorted_commit (session : ImageSession) (batch : List Reported) :
    StablySorted RegisteredImage.start (moveOver session.modules batch) (session.commit batch) :=
  stablySorted_mergeSort RegisteredImage.start _

namespace Orderly

variable {session : ImageSession}

theorem new (files : FileSource) : Orderly (.new files) := by
  constructor <;> simp [ImageSession.new]

theorem standsFor?_kept (orderly : session.Orderly) {entry : RegisteredImage}
    (member : entry ∈ session.modules) :
    standsFor? session.modules (.kept entry.handle) = some entry :=
  (find?_handle_eq_some_iff orderly.distinct).mpr ⟨member, rfl⟩

theorem loadImage (orderly : session.Orderly) {batch : List Reported}
    (isOpen : session.batch = some batch) (image : Image) :
    (session.withImage batch image).Orderly := by
  refine ⟨orderly.sorted, orderly.distinct, ?_, ?_⟩
  · intro entry member
    exact (orderly.issued entry member).mono (Nat.le_succ _)
  · rintro longer ⟨⟩
    exact (orderly.batch batch isOpen).load orderly.issued image

theorem mem_commit_iff (orderly : session.Orderly) {batch : List Reported}
    (isOpen : session.batch = some batch) {entry : RegisteredImage} :
    entry ∈ session.commit batch ↔
      ∃ reported ∈ batch, standsFor? session.modules reported = some entry := by
  rw [(session.stablySorted_commit batch).perm.mem_iff]
  exact (orderly.batch batch isOpen).mem_moveOver_iff orderly.distinct

theorem nodup_commit (orderly : session.Orderly) {batch : List Reported}
    (isOpen : session.batch = some batch) :
    ((session.commit batch).map (·.handle)).Nodup := by
  have inBatch := orderly.batch batch isOpen
  have perm := (session.stablySorted_commit batch).perm
  rw [(perm.map _).nodup_iff, inBatch.map_handle_moveOver orderly.distinct]
  exact inBatch.once

theorem step (orderly : session.Orderly) {request : Request} {next : ImageSession}
    (step : Step session request next) : next.Orderly := by
  cases step with
  | idle files => exact ⟨orderly.sorted, orderly.distinct, orderly.issued, orderly.batch⟩
  | opened =>
      refine ⟨orderly.sorted, orderly.distinct, orderly.issued, ?_⟩
      rintro batch ⟨⟩
      exact .nil
  | @kept path loadAddress batch entry isOpen notPending member isOf =>
      refine ⟨orderly.sorted, orderly.distinct, orderly.issued, ?_⟩
      rintro longer ⟨⟩
      apply (orderly.batch batch isOpen).keep member
      intro reported
      exact not_isOf_of_pending? notPending reported (orderly.standsFor?_kept member) isOf
  | read isOpen => exact orderly.loadImage isOpen _
  | given isOpen => exact orderly.loadImage isOpen _
  | @ended batch isOpen =>
      have ascending := (session.stablySorted_commit batch).ascending
      refine ⟨ascending, orderly.nodup_commit isOpen, ?_, by simp⟩
      intro entry member
      obtain ⟨reported, inBatch, stands⟩ := (orderly.mem_commit_iff isOpen).mp member
      rw [handle_of_standsFor? stands]
      exact (orderly.batch batch isOpen).isIssued orderly.issued inBatch

theorem run (orderly : session.Orderly) (requests : List Request) :
    (session.run requests).Orderly :=
  run_induction (fun orderly step => orderly.step step) orderly requests

end Orderly

theorem Reachable.orderly {session : ImageSession} (reachable : session.Reachable) :
    session.Orderly := by
  induction reachable with
  | new files => exact .new files
  | perform request _ orderly => exact orderly.step (step_perform _ request)

end ImageSession

end Symbolization
