import Symbolization.Proofs.Session.Lawful
import Symbolization.Proofs.Session.Orderly

/-!
# Registration of images

A handle is given out once and never again, and an image stays under its handle until a batch
leaves it out.  So whatever was derived from the image of a handle still holds as long as the
handle is known.
-/

namespace Symbolization

namespace ImageSession

theorem image?_eq_some_iff {session : ImageSession} (orderly : session.Orderly)
    {handle : ModuleHandle} {image : Image} :
    session.image? handle = some image ↔ ⟨handle, image⟩ ∈ session.modules := by
  rw [image?, Option.map_eq_some_iff]
  constructor
  · rintro ⟨entry, found, rfl⟩
    obtain ⟨member, rfl⟩ := (find?_handle_eq_some_iff orderly.distinct).mp found
    exact member
  · intro member
    exact ⟨_, (find?_handle_eq_some_iff orderly.distinct).mpr ⟨member, rfl⟩, rfl⟩

/-- A handle that is known before and after the end of a batch has the same image. -/
theorem image?_reportEnd {session : ImageSession} (orderly : session.Orderly)
    {handle : ModuleHandle} {before after : Image}
    (known : session.image? handle = some before)
    (still : session.reportEnd.2.image? handle = some after) : after = before := by
  have registered := (image?_eq_some_iff orderly).mp known
  cases isOpen : session.batch with
  | none =>
      rw [reportEnd, isOpen] at still
      exact Option.some.inj (still.symm.trans known)
  | some batch =>
      have orderlyAfter := orderly.step (session.step_perform .reportEnd)
      have member := (image?_eq_some_iff orderlyAfter).mp still
      rw [perform, reportEnd_snd isOpen] at member
      obtain ⟨reported, inBatch, stands⟩ := (orderly.mem_commit_iff isOpen).mp member
      cases reported with
      | kept kept =>
          have registeredAfter := List.mem_of_find?_eq_some stands
          have same := List.inj_on_of_nodup_map orderly.distinct registeredAfter registered rfl
          exact congrArg RegisteredImage.image same
      | loaded loaded =>
          cases stands
          have different := (orderly.batch batch isOpen).loaded_fresh _ inBatch _ registered
          exact absurd rfl different

/-! The laws of sessions. -/

theorem unit?_congr {left right : ImageSession} {handle : UnitHandle}
    (same : left.image? handle.module = right.image? handle.module) :
    left.unit? handle = right.unit? handle := by
  simp only [unit?, same]

theorem entryAt?_congr {left right : ImageSession} {handle : EntryHandle}
    (same : left.image? handle.unit.module = right.image? handle.unit.module) :
    left.entryAt? handle = right.entryAt? handle := by
  simp only [entryAt?, unit?_congr same]

/-- Sessions that have the same image under a handle answer alike about its units. -/
theorem agreeOn_of_image? {left right : ImageSession} {module : ModuleHandle}
    (same : left.image? module = right.image? module) :
    DebugView.AgreeOn module left.view right.view where
  units := by simp only [view, units, same]
  root := by
    rintro unit rfl
    simp only [view, unit?_congr same]
  children := by
    rintro entry rfl
    simp only [view, children, unit?_congr same]
  tag := by
    rintro entry rfl
    simp only [view, entryAt?_congr same]
  isDeclaration := by
    rintro entry rfl
    simp only [view, entryAt?_congr same]
  ranges := by
    rintro entry rfl
    simp only [view, entryAt?_congr same]

theorem view_confined (session : ImageSession) : session.view.Confined where
  unit_module := by
    intro module owned member
    simp only [view, units] at member
    split at member
    · contradiction
    · obtain ⟨index, _, rfl⟩ := List.mem_map.mp member
      rfl
  root_unit := by
    intro unit root found
    simp only [view, Option.bind_eq_bind, Option.bind_eq_some_iff] at found
    obtain ⟨pair, _, entry, _, equality⟩ := found
    cases equality
    rfl
  unitAt_module := by
    intro module address owned found
    simp only [view, unitAt, Option.bind_eq_bind, Option.bind_eq_some_iff] at found
    obtain ⟨image, _, index, _, equality⟩ := found
    cases equality
    rfl
  scope_unit := by
    intro unit address scope member
    simp only [view] at member
    split at member
    · contradiction
    · obtain ⟨offset, _, rfl⟩ := List.mem_map.mp member
      rfl

theorem view_reportModule (session : ImageSession) (path : FilePath) (loadAddress : UInt64) :
    (session.reportModule path loadAddress).2.view = session.view := by
  unfold reportModule reportImage
  cases isOpen : session.batch with
  | none => rfl
  | some batch =>
      dsimp only
      split
      · rfl
      · split
        · rfl
        · split <;> rfl

instance : Surroundings ImageSession where
  World := FileSource
  surround session files := session.perform (.replaceFiles files)

instance : LawfulSession ImageSession where
  Legal := Reachable
  legal_reportBegin := .perform .reportBegin
  legal_reportModule path loadAddress := .perform (.reportModule path loadAddress)
  legal_reportEnd := .perform .reportEnd
  legal_noteEnumeration _ reachable := reachable
  legal_surround files := .perform (.replaceFiles files)
  confined := view_confined
  view_reportBegin _ := rfl
  view_reportModule := view_reportModule
  view_noteEnumeration _ _ := rfl
  view_surround _ _ := rfl
  agreeOn_reportEnd := by
    intro session module reachable known still
    obtain ⟨before, beforeFound⟩ := Option.isSome_iff_exists.mp (Option.isSome_map ▸ known)
    obtain ⟨after, afterFound⟩ := Option.isSome_iff_exists.mp (Option.isSome_map ▸ still)
    have same := image?_reportEnd reachable.orderly beforeFound afterFound
    exact agreeOn_of_image? (by rw [beforeFound, afterFound, same])
  reportBegin_noteEnumeration _ _ := rfl
  reportModule_noteEnumeration _ _ _ _ := rfl
  reportEnd_noteEnumeration _ _ := rfl
  surround_noteEnumeration _ _ _ := rfl

end ImageSession

end Symbolization
