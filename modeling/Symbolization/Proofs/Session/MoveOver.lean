import Symbolization.Session.ImageSession
import Mathlib.Data.List.Nodup
import Mathlib.Data.List.Perm.Basic

/-!
# Moving images over

At the end of a batch the images that it keeps are taken out of the registered ones, one after the
other, and each time the last of those that remain changes its place.  As long as no handle occurs
twice this is no matter: every report of the batch finds the image that it stands for.
-/

namespace Symbolization

namespace ImageSession

def standsFor? (registered : List RegisteredImage) : Reported → Option RegisteredImage
  | .kept handle => registered.find? (·.handle == handle)
  | .loaded entry => some entry

theorem handle_of_standsFor? {registered : List RegisteredImage} {reported : Reported}
    {entry : RegisteredImage} (stands : standsFor? registered reported = some entry) :
    entry.handle = reported.handle := by
  cases reported with
  | kept handle =>
      rw [standsFor?] at stands
      exact beq_iff_eq.mp (List.find?_some stands :)
  | loaded loaded =>
      cases stands
      rfl

theorem find?_handle_eq_some_iff {registered : List RegisteredImage}
    (distinct : (registered.map (·.handle)).Nodup) {handle : ModuleHandle}
    {entry : RegisteredImage} :
    registered.find? (·.handle == handle) = some entry ↔
      entry ∈ registered ∧ entry.handle = handle := by
  constructor
  · intro found
    exact ⟨List.mem_of_find?_eq_some found, by simpa using List.find?_some found⟩
  · rintro ⟨member, named⟩
    have someFound : (registered.find? (·.handle == handle)).isSome := by
      rw [List.find?_isSome]
      exact ⟨entry, member, by simpa using named⟩
    obtain ⟨other, found⟩ := Option.isSome_iff_exists.mp someFound
    have otherNamed : other.handle = handle := by simpa using List.find?_some found
    have same : other = entry :=
      List.inj_on_of_nodup_map distinct (List.mem_of_find?_eq_some found) member
        (otherNamed.trans named.symm)
    rw [found, same]

/-- Where the last image takes the place of another one, that other one is all that goes. -/
theorem takeOut_perm {registered : List RegisteredImage} {index : Nat}
    (inside : index < registered.length) :
    (registered[index] :: takeOut registered index).Perm registered := by
  obtain ⟨front, last, rfl⟩ : ∃ front last, registered = front ++ [last] := by
    refine ⟨registered.dropLast, registered.getLast ?_, ?_⟩
    · exact List.ne_nil_of_length_pos (Nat.zero_lt_of_lt inside)
    · exact (List.dropLast_append_getLast _).symm
  have split : takeOut (front ++ [last]) index = ((front ++ [last]).set index last).dropLast := by
    simp [takeOut]
  rw [split]
  by_cases atEnd : index = front.length
  · subst index
    simpa using (List.perm_append_singleton last front).symm
  · have before : index < front.length := by
      rw [List.length_append, List.length_singleton] at inside
      omega
    rw [List.set_append_left index last before, List.dropLast_concat,
      List.getElem_append_left before]
    have replaced : (front.set index last).Perm (last :: front.eraseIdx index) :=
      List.set_perm_cons_eraseIdx before last
    have restored : (front[index] :: front.eraseIdx index).Perm front :=
      List.getElem_cons_eraseIdx_perm before
    have swapped := (replaced.cons front[index]).trans (.swap last front[index] _)
    exact swapped.trans ((restored.cons last).trans (List.perm_append_singleton last front).symm)

theorem takeOut_findIdx_perm {registered : List RegisteredImage} {entry : RegisteredImage}
    {test : RegisteredImage → Bool} (found : registered.find? test = some entry) :
    (entry :: takeOut registered (registered.findIdx test)).Perm registered := by
  have inside : registered.findIdx test < registered.length :=
    List.findIdx_lt_length_of_exists
      ⟨entry, List.mem_of_find?_eq_some found, List.find?_some found⟩
  have there : registered[registered.findIdx test] = entry := by
    obtain ⟨_, index, bound, rfl, earlier⟩ := List.find?_eq_some_iff_getElem.mp found
    congr 1
    rw [List.findIdx_eq bound]
    exact ⟨List.find?_some found, by simpa using earlier⟩
  rw [← there]
  exact takeOut_perm inside

/-- The reports of a batch find the same images whatever was taken out for others before. -/
theorem moveOver_eq_filterMap {registered : List RegisteredImage} {batch : List Reported}
    (distinct : (registered.map (·.handle)).Nodup) (once : (batch.map Reported.handle).Nodup) :
    moveOver registered batch = batch.filterMap (standsFor? registered) := by
  induction batch generalizing registered with
  | nil => rfl
  | cons reported batch induction =>
      obtain ⟨fresh, onceBelow⟩ := List.nodup_cons.mp once
      cases reported with
      | loaded entry =>
          rw [moveOver, induction distinct onceBelow]
          rfl
      | kept handle =>
          rw [moveOver]
          cases found : registered.find? (·.handle == handle) with
          | none =>
              rw [induction distinct onceBelow]
              simp [standsFor?, found]
          | some entry =>
              let rest := takeOut registered (registered.findIdx (·.handle == handle))
              have perm : (entry :: rest).Perm registered := takeOut_findIdx_perm found
              have distinctAll : ((entry :: rest).map (·.handle)).Nodup :=
                (perm.map _).nodup_iff.mpr distinct
              have distinctRest : (rest.map (·.handle)).Nodup := (List.nodup_cons.mp distinctAll).2
              have named : entry.handle = handle := by simpa using List.find?_some found
              have unmoved : batch.filterMap (standsFor? rest) =
                  batch.filterMap (standsFor? registered) := by
                apply List.filterMap_congr
                intro other member
                cases other with
                | loaded loaded => rfl
                | kept kept =>
                    have different : kept ≠ handle := by
                      rintro rfl
                      exact fresh (List.mem_map_of_mem member)
                    apply Option.ext
                    intro candidate
                    rw [standsFor?, standsFor?, find?_handle_eq_some_iff distinctRest,
                      find?_handle_eq_some_iff distinct, ← perm.mem_iff, List.mem_cons]
                    grind
              simp only [List.filterMap_cons, standsFor?, found]
              rw [induction distinctRest onceBelow, unmoved]

end ImageSession

end Symbolization
