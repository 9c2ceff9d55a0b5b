import Symbolization.Proofs.Session.HandleIdentity

/-!
# Batches of paths

A batch that names images by their paths registers what each path brings: the image that was
registered before, or else the one that is in the file.  It is the same image whenever the path is
reported and however often, as long as no other path of the batch is told alike.
-/

namespace Symbolization

namespace ImageSession

/-- The image that a report of a path and a load address brings, if any. -/
def brings? (session : ImageSession) (origin : FilePath × UInt64) : Option Image :=
  match session.modules.find? (·.isOf origin.1 origin.2) with
  | some entry => some entry.image
  | none => (Image.load session.files origin.1 origin.2).toOption

/-- The images that the end of the open batch registers, in the order of the reports. -/
def awaited (session : ImageSession) : List RegisteredImage :=
  (session.batch.getD []).filterMap (standsFor? session.modules)

/-- Reports at one load address are for one path if their paths are told alike. -/
def ToldApart (origins : List (FilePath × UInt64)) : Prop :=
  ∀ one ∈ origins, ∀ other ∈ origins, one.1.told = other.1.told → one.2 = other.2 → one = other

theorem ToldApart.of_subset {origins others : List (FilePath × UInt64)} (apart : ToldApart origins)
    (subset : ∀ origin ∈ others, origin ∈ origins) : ToldApart others :=
  fun one member other memberToo => apart one (subset one member) other (subset other memberToo)

theorem toldApart_of_texts (origins : List (String × UInt64)) :
    ToldApart (origins.map fun origin => (.text origin.1, origin.2)) := by
  intro one member other memberToo alike samePlace
  obtain ⟨first, -, rfl⟩ := List.mem_map.mp member
  obtain ⟨second, -, rfl⟩ := List.mem_map.mp memberToo
  exact Prod.ext (congrArg FilePath.text alike) samePlace

/-- The reports of some paths with load addresses. -/
def pathReports (origins : List (FilePath × UInt64)) : List Request :=
  origins.map fun origin => .reportModule origin.1 origin.2

variable {session : ImageSession}

theorem brings?_congr {left right : ImageSession} (modules : left.modules = right.modules)
    (files : left.files = right.files) (origin : FilePath × UInt64) :
    left.brings? origin = right.brings? origin := by
  rw [brings?, brings?, modules, files]

/-- How a report comes to what it brings. -/
inductive Brings (session : ImageSession) (origin : FilePath × UInt64) : Option Image → Prop where
  | kept {entry : RegisteredImage} :
      entry ∈ session.modules → entry.isOf origin.1 origin.2 →
      session.registered? origin.1 origin.2 = some entry.handle →
      Brings session origin (some entry.image)
  | read {image : Image} :
      session.registered? origin.1 origin.2 = none →
      Image.load session.files origin.1 origin.2 = .ok image → Brings session origin (some image)
  | nothing {error : SymbolizeError} :
      session.registered? origin.1 origin.2 = none →
      Image.load session.files origin.1 origin.2 = .error error → Brings session origin none

theorem brings_brings? (session : ImageSession) (origin : FilePath × UInt64) :
    session.Brings origin (session.brings? origin) := by
  unfold brings?
  cases found : session.modules.find? (·.isOf origin.1 origin.2) with
  | some entry =>
      apply Brings.kept (List.mem_of_find?_eq_some found) (List.find?_some found :)
      rw [registered?, found, Option.map_some]
  | none =>
      have notRegistered : session.registered? origin.1 origin.2 = none := by
        rw [registered?, found, Option.map_none]
      cases loaded : Image.load session.files origin.1 origin.2 with
      | ok image => exact .read notRegistered loaded
      | error error => exact .nothing notRegistered loaded

namespace Brings

variable {origin : FilePath × UInt64} {image : Image} {batch : List Reported}

theorem origin_eq (brings : session.Brings origin (some image)) :
    (image.name, image.bias) = (origin.1.told, origin.2) := by
  cases brings with
  | kept member isOf registered => exact RegisteredImage.isOf_iff.mp isOf
  | read notRegistered loaded =>
      obtain ⟨named, placed⟩ := Image.load_placed loaded
      rw [named, placed]

theorem exists_append (brings : session.Brings origin (some image)) (orderly : session.Orderly)
    (isOpen : session.batch = some batch)
    (notPending : session.pending? batch origin.1 origin.2 = none) :
    ∃ reported entry, standsFor? session.modules reported = some entry ∧ entry.image = image ∧
      (session.reportModule origin.1 origin.2).2.batch = some (batch ++ [reported]) := by
  cases brings with
  | @kept entry member isOf registered =>
      rw [reportModule_of_registered isOpen notPending registered]
      exact ⟨_, entry, orderly.standsFor?_kept member, rfl, rfl⟩
  | read notRegistered loaded =>
      rw [reportModule_of_read isOpen notPending notRegistered loaded]
      exact ⟨_, session.nextEntry image, rfl, rfl, rfl⟩

theorem unchanged (brings : session.Brings origin none) (isOpen : session.batch = some batch)
    (notPending : session.pending? batch origin.1 origin.2 = none) :
    (session.reportModule origin.1 origin.2).2 = session := by
  cases brings with
  | nothing notRegistered failed =>
      rw [reportModule_of_fault isOpen notPending notRegistered failed]

end Brings

/-- The open batch has what the reported paths bring to the session in which it was opened, and has
nothing twice. -/
structure Collects (start : ImageSession) (origins : List (FilePath × UInt64))
    (session : ImageSession) : Prop where
  orderly : session.Orderly
  modules : session.modules = start.modules
  files : session.files = start.files
  isOpen : session.batch.isSome
  once : (session.awaited.map (·.origin)).Nodup
  mem_iff : ∀ image, image ∈ session.awaited.map (·.image) ↔
    image ∈ origins.filterMap start.brings?

namespace Collects

variable {start : ImageSession} {origins : List (FilePath × UInt64)}

theorem reportBegin (orderly : start.Orderly) : start.Collects [] start.reportBegin where
  orderly := orderly.step .opened
  modules := rfl
  files := rfl
  isOpen := rfl
  once := List.nodup_nil
  mem_iff := by simp [awaited, ImageSession.reportBegin]

theorem mem_of_pending? (collects : start.Collects origins session) {batch : List Reported}
    (isOpen : session.batch = some batch) {origin : FilePath × UInt64} {handle : ModuleHandle}
    (apart : ToldApart (origins ++ [origin]))
    (pending : session.pending? batch origin.1 origin.2 = some handle) : origin ∈ origins := by
  obtain ⟨reported, found, _⟩ := Option.map_eq_some_iff.mp pending
  obtain ⟨entry, stands, isOf⟩ := exists_of_covers collects.orderly (List.find?_some found)
  have awaits : entry ∈ session.awaited := by
    rw [awaited, isOpen]
    exact List.mem_filterMap.mpr ⟨reported, List.mem_of_find?_eq_some found, stands⟩
  obtain ⟨earlier, member, brought⟩ :=
    List.mem_filterMap.mp ((collects.mem_iff entry.image).mp (List.mem_map_of_mem awaits))
  have brings := brought ▸ start.brings_brings? earlier
  have alike : (earlier.1.told, earlier.2) = (origin.1.told, origin.2) :=
    brings.origin_eq.symm.trans (RegisteredImage.isOf_iff.mp isOf)
  obtain ⟨sameText, samePlace⟩ := Prod.mk.inj alike
  have same : earlier = origin := apart earlier (List.mem_append_left _ member) origin
    (List.mem_append_right _ List.mem_cons_self) sameText samePlace
  rwa [same] at member

theorem repeated (collects : start.Collects origins session) {origin : FilePath × UInt64}
    (known : origin ∈ origins ∨ start.brings? origin = none) :
    start.Collects (origins ++ [origin]) session := by
  refine { collects with mem_iff := fun image => ?_ }
  rw [collects.mem_iff image, List.filterMap_append, List.mem_append]
  refine (or_iff_left_of_imp fun again => ?_).symm
  obtain ⟨other, isLast, brought⟩ := List.mem_filterMap.mp again
  cases List.mem_singleton.mp isLast
  rcases known with reported | nothing
  · exact List.mem_filterMap.mpr ⟨origin, reported, brought⟩
  · rw [nothing] at brought
    contradiction

theorem brings?_eq (collects : start.Collects origins session) (origin : FilePath × UInt64) :
    session.brings? origin = start.brings? origin :=
  brings?_congr collects.modules collects.files origin

theorem added (collects : start.Collects origins session) {batch : List Reported}
    (isOpen : session.batch = some batch) {origin : FilePath × UInt64}
    (notPending : session.pending? batch origin.1 origin.2 = none) {image : Image}
    (brought : session.brings? origin = some image) :
    start.Collects (origins ++ [origin]) (session.reportModule origin.1 origin.2).2 := by
  have step := session.step_reportModule origin.1 origin.2
  have modules := step.modules_eq (by simp)
  have files := session.files_perform (.reportModule origin.1 origin.2)
  have brings := brought ▸ session.brings_brings? origin
  obtain ⟨reported, entry, stands, rfl, longer⟩ :=
    brings.exists_append collects.orderly isOpen notPending
  refine ⟨collects.orderly.step step, modules.trans collects.modules,
    files.trans collects.files, by simp [longer], ?_, ?_⟩
  · have once := collects.once
    rw [awaited, isOpen] at once
    rw [awaited, longer, modules]
    have isOf : entry.isOf origin.1 origin.2 := RegisteredImage.isOf_iff.mpr brings.origin_eq
    exact nodup_origin_append once notPending stands isOf
  · intro other
    have awaits : (session.reportModule origin.1 origin.2).2.awaited =
        session.awaited ++ [entry] := by
      simp [awaited, isOpen, modules, longer, stands]
    have last : [origin].filterMap start.brings? = [entry.image] :=
      List.filterMap_cons_some ((collects.brings?_eq origin).symm.trans brought)
    rw [awaits, List.map_append, List.filterMap_append, last, List.mem_append, List.mem_append,
      collects.mem_iff other]
    rfl

theorem report (collects : start.Collects origins session) {origin : FilePath × UInt64}
    (apart : ToldApart (origins ++ [origin])) :
    start.Collects (origins ++ [origin]) (session.reportModule origin.1 origin.2).2 := by
  obtain ⟨batch, isOpen⟩ := Option.isSome_iff_exists.mp collects.isOpen
  cases pending : session.pending? batch origin.1 origin.2 with
  | some handle =>
      rw [reportModule_of_pending isOpen pending]
      exact collects.repeated (.inl (collects.mem_of_pending? isOpen apart pending))
  | none =>
      cases brought : session.brings? origin with
      | none =>
          have brings := brought ▸ session.brings_brings? origin
          rw [brings.unchanged isOpen pending]
          exact collects.repeated (.inr ((collects.brings?_eq origin).symm.trans brought))
      | some image => exact collects.added isOpen pending brought

theorem run (collects : start.Collects origins session) {later : List (FilePath × UInt64)}
    (apart : ToldApart (origins ++ later)) :
    start.Collects (origins ++ later) (session.run (pathReports later)) := by
  induction later generalizing origins session with
  | nil =>
      rw [List.append_nil]
      exact collects
  | cons origin later induction =>
      rw [List.append_cons] at apart ⊢
      have apartSoFar : ToldApart (origins ++ [origin]) :=
        apart.of_subset fun _ member => List.mem_append_left later member
      exact induction (collects.report apartSoFar) apart

theorem perm_reportEnd (collects : start.Collects origins session) :
    session.reportEnd.2.modules.Perm session.awaited := by
  obtain ⟨batch, isOpen⟩ := Option.isSome_iff_exists.mp collects.isOpen
  have once := (collects.orderly.batch batch isOpen).once
  rw [reportEnd_snd isOpen, awaited, isOpen, Option.getD_some,
    ← moveOver_eq_filterMap collects.orderly.distinct once]
  exact (session.stablySorted_commit batch).perm

theorem nodup_images (collects : start.Collects origins session) :
    (session.awaited.map (·.image)).Nodup := by
  have once := collects.once
  have origin : RegisteredImage.origin =
      (fun image : Image => (image.name, image.bias)) ∘ RegisteredImage.image := rfl
  rw [origin, ← List.map_map] at once
  exact once.of_map _

/-- The same paths bring the same images, in whatever order and however often they are reported. -/
theorem perm_images {left right : ImageSession} {first second : List (FilePath × UInt64)}
    (leftCollects : start.Collects first left) (rightCollects : start.Collects second right)
    (same : ∀ origin, origin ∈ first ↔ origin ∈ second) :
    (left.reportEnd.2.modules.map (·.image)).Perm (right.reportEnd.2.modules.map (·.image)) := by
  have awaited : (left.awaited.map (·.image)).Perm (right.awaited.map (·.image)) := by
    rw [List.perm_ext_iff_of_nodup leftCollects.nodup_images rightCollects.nodup_images]
    intro image
    rw [leftCollects.mem_iff, rightCollects.mem_iff, List.mem_filterMap, List.mem_filterMap]
    simp only [same]
  calc left.reportEnd.2.modules.map (·.image)
    List.Perm _ (left.awaited.map (·.image)) := leftCollects.perm_reportEnd.map _
    List.Perm _ (right.awaited.map (·.image)) := awaited
    List.Perm _ (right.reportEnd.2.modules.map (·.image)) :=
      (rightCollects.perm_reportEnd.map _).symm

end Collects

/-- Images that start at different addresses have but one order. -/
theorem images_eq_of_perm {left right : ImageSession} (leftOrderly : left.Orderly)
    (rightOrderly : right.Orderly)
    (perm : (left.modules.map (·.image)).Perm (right.modules.map (·.image)))
    (distinct : (left.modules.map (·.start)).Nodup) :
    left.modules.map (·.image) = right.modules.map (·.image) := by
  have ascending : ∀ {session : ImageSession}, session.Orderly →
      (session.modules.map (·.image)).Pairwise fun first second => first.start ≤ second.start :=
    fun orderly => List.pairwise_map.mpr orderly.sorted
  have distinctImages : ((left.modules.map (·.image)).map Image.start).Nodup := by
    rwa [List.map_map]
  refine List.Perm.eq_of_pairwise ?_ (ascending leftOrderly) (ascending rightOrderly) perm
  intro image other member otherMember before behind
  have otherLeft := perm.mem_iff.mpr otherMember
  exact List.inj_on_of_nodup_map distinctImages member otherLeft
    (UInt64.le_antisymm before behind)

end ImageSession

end Symbolization
