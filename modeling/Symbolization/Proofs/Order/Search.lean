import Mathlib.Data.List.Nodup
import Symbolization.Order.Search
import Symbolization.Proofs.Order.StableSort

/-!
# What a search of a sorted list finds

Items that pass the test need not stand together in the list.  As long as none of them has a number
above the bound, the search from the cut towards the front finds the last one of the whole list.
If the list was sorted stably, this is the one with the greatest number, and of several with that
number the last one in the list as it was before.

The search for one number finds the item with the greatest number that is not above it, be it that
number or a lesser one.
-/

namespace Symbolization

variable {α : Type} {key : α → UInt64} {bound : UInt64} {test : α → Bool}
  {items sorted : List α} {item : α}

theorem any_getElem?_append {front back : List α} (passes : ∀ item ∈ front, test item)
    (fails : ∀ item ∈ back, ¬ test item) (place : Nat) :
    (front ++ back)[place]?.any test ↔ place < front.length := by
  by_cases inFront : place < front.length
  · have member : front[place] ∈ front := List.getElem_mem inFront
    simp [List.getElem?_append_left, inFront, passes _ member]
  · have behind : (front ++ back)[place]? = back[place - front.length]? :=
      List.getElem?_append_right (Nat.le_of_not_lt inFront)
    rw [behind]
    cases found : back[place - front.length]? with
    | none => simp [inFront]
    | some item => simp [inFront, fails item (List.mem_of_getElem? found)]

/-- Halving finds where the items that pass end, if it starts with this place in its stretch. -/
theorem partitionBetween_append {front back : List α} (passes : ∀ item ∈ front, test item)
    (fails : ∀ item ∈ back, ¬ test item) {low high : Nat} (behind : low ≤ front.length)
    (before : front.length ≤ high) :
    partitionBetween test (front ++ back) low high = front.length := by
  have inFront := any_getElem?_append passes fails
  generalize front ++ back = items at inFront
  fun_induction partitionBetween test items low high with
  | case1 low high nonempty middle passed induction =>
      exact induction ((inFront middle).mp passed) before
  | case2 low high nonempty middle failed induction =>
      exact induction behind (Nat.le_of_not_lt (mt (inFront middle).mpr failed))
  | case3 low high empty => omega

/-- A sorted list is cut behind the items whose numbers are not above the bound. -/
theorem exists_cut (ascending : items.Pairwise fun first second => key first ≤ key second)
    (bound : UInt64) :
    ∃ front back, items = front ++ back ∧ (∀ item ∈ front, key item ≤ bound) ∧
      ∀ item ∈ back, bound < key item := by
  induction items with
  | nil => exact ⟨[], [], rfl, by simp, by simp⟩
  | cons first items induction =>
      obtain ⟨least, ascendingBelow⟩ := List.pairwise_cons.mp ascending
      by_cases within : key first ≤ bound
      · obtain ⟨front, back, rfl, atMost, above⟩ := induction ascendingBelow
        refine ⟨first :: front, back, rfl, ?_, above⟩
        intro item member
        rcases List.mem_cons.mp member with rfl | later
        · exact within
        · exact atMost item later
      · have behind : bound < key first := UInt64.not_le.mp within
        refine ⟨[], first :: items, rfl, by simp, ?_⟩
        intro item member
        rcases List.mem_cons.mp member with rfl | later
        · exact behind
        · exact UInt64.lt_of_lt_of_le behind (least item later)

theorem take_partitionPoint {front back : List α} (atMost : ∀ item ∈ front, key item ≤ bound)
    (above : ∀ item ∈ back, bound < key item) :
    (front ++ back).take (partitionPoint (fun item => key item ≤ bound) (front ++ back)) =
      front := by
  have place : partitionPoint (fun item => key item ≤ bound) (front ++ back) = front.length := by
    apply partitionBetween_append
    · simpa using atMost
    · simpa [UInt64.not_le] using above
    · exact Nat.zero_le _
    · simp
  rw [place, List.take_left]

theorem lastUpTo?_eq_getLast?
    (ascending : items.Pairwise fun first second => key first ≤ key second)
    (within : ∀ item ∈ items, test item → key item ≤ bound) :
    lastUpTo? key bound test items = (items.filter test).getLast? := by
  obtain ⟨front, back, rfl, atMost, above⟩ := exists_cut ascending bound
  have missed : back.reverse.find? test = none := by
    rw [List.find?_eq_none]
    intro item member passes
    have inBack := List.mem_reverse.mp member
    have bounded := within item (List.mem_append_right front inBack) passes
    exact UInt64.not_le.mpr (above item inBack) bounded
  rw [lastUpTo?, take_partitionPoint atMost above, List.getLast?_filter, List.reverse_append,
    List.find?_append, missed, Option.none_or]

/-- Whatever the list, what is found is one of its items and passes the test. -/
theorem mem_of_lastUpTo? (found : lastUpTo? key bound test items = some item) :
    item ∈ items ∧ test item := by
  have member := List.mem_reverse.mp (List.mem_of_find?_eq_some found)
  exact ⟨List.mem_of_mem_take member, List.find?_some found⟩

theorem partitionBetween_map {β : Type} (change : β → α) (test : α → Bool) (items : List β)
    (low high : Nat) :
    partitionBetween test (items.map change) low high =
      partitionBetween (test ∘ change) items low high := by
  have tested : ∀ place : Nat,
      (items.map change)[place]?.any test = items[place]?.any (test ∘ change) := by
    intro place
    rw [List.getElem?_map, Option.any_map]
    rfl
  fun_induction partitionBetween (test ∘ change) items low high with
  | case1 low high nonempty middle passed induction =>
      rw [partitionBetween, if_pos nonempty]
      exact (if_pos ((tested middle).trans passed)).trans induction
  | case2 low high nonempty middle failed induction =>
      rw [partitionBetween, if_pos nonempty]
      rw [← tested middle] at failed
      exact (if_neg failed).trans induction
  | case3 low high empty => rw [partitionBetween, if_neg empty]

/-- What is found among changed items is what is found by tests of the change. -/
theorem lastUpTo?_map {β : Type} (change : β → α) (items : List β) :
    lastUpTo? key bound test (items.map change) =
      (lastUpTo? (key ∘ change) bound (test ∘ change) items).map change := by
  have cut : partitionPoint (fun item => key item ≤ bound) (items.map change) =
      partitionPoint (fun item => (key ∘ change) item ≤ bound) items := by
    rw [partitionPoint, List.length_map]
    exact partitionBetween_map change _ items 0 items.length
  rw [lastUpTo?, cut, ← List.map_take, ← List.map_reverse, List.find?_map, lastUpTo?]

/-- The item passes the test, its number is the greatest of all that do, and of those with this
number it is the last one. -/
structure IsLatest (key : α → UInt64) (test : α → Bool) (items : List α) (item : α) : Prop where
  passes : test item
  latest : ∃ before after, items = before ++ item :: after ∧
    (∀ other ∈ before, test other → key other ≤ key item) ∧
    ∀ other ∈ after, test other → key other < key item

theorem IsLatest.unique {other : α} (isLatest : IsLatest key test items item)
    (otherIs : IsLatest key test items other) : item = other := by
  obtain ⟨passes, before, after, rfl, atMost, below⟩ := isLatest
  obtain ⟨otherPasses, before', after', split, atMost', below'⟩ := otherIs
  rcases List.append_eq_append_iff.mp split with ⟨between, rfl, rest⟩ | ⟨between, rfl, rest⟩
  · rcases List.cons_eq_append_iff.mp rest with ⟨rfl, same⟩ | ⟨more, rfl, rfl⟩
    · exact (List.cons.inj same).1.symm
    · have first := below other (by simp) otherPasses
      exact absurd (atMost' item (by simp) passes) (UInt64.not_le.mpr first)
  · rcases List.cons_eq_append_iff.mp rest with ⟨rfl, same⟩ | ⟨more, rfl, rfl⟩
    · exact (List.cons.inj same).1
    · have first := below' item (by simp) passes
      exact absurd (atMost other (by simp) otherPasses) (UInt64.not_le.mpr first)

namespace StablySorted

theorem filter (stably : StablySorted key items sorted) (test : α → Bool) :
    StablySorted key (items.filter test) (sorted.filter test) where
  perm := stably.perm.filter test
  ascending := stably.ascending.filter test
  stable number := by
    simp only [List.filter_filter, Bool.and_comm _ (test _)]
    simp only [← List.filter_filter, stably.stable number]

/-- The last item in order is the last one, as the items stood before, of those with its number. -/
theorem exists_split (stably : StablySorted key items sorted) (last : sorted.getLast? = some item) :
    ∃ before after, items = before ++ item :: after ∧
      (∀ other ∈ before, key other ≤ key item) ∧ ∀ other ∈ after, key other < key item := by
  obtain ⟨front, rfl⟩ := List.getLast?_eq_some_iff.mp last
  have greatest : ∀ other ∈ items, key other ≤ key item := by
    intro other member
    rcases List.mem_append.mp (stably.perm.mem_iff.mpr member) with earlier | isLast
    · exact (List.pairwise_append.mp stably.ascending).2.2 other earlier item (by simp)
    · cases List.mem_singleton.mp isLast
      exact UInt64.le_refl _
  have alike := stably.stable (key item)
  rw [List.filter_append, List.filter_cons_of_pos (by simp), List.filter_nil] at alike
  obtain ⟨before, rest, rfl, -, filtered⟩ := List.filter_eq_append_iff.mp alike.symm
  obtain ⟨passed, after, rfl, -, -, noMore⟩ := List.filter_eq_cons_iff.mp filtered
  refine ⟨before ++ passed, after, by simp, ?_, ?_⟩
  · intro other member
    apply greatest other
    rcases List.mem_append.mp member with first | second <;> simp [*]
  · intro other member
    have different : key other ≠ key item := by
      simpa using List.filter_eq_nil_iff.mp noMore other member
    exact UInt64.lt_of_le_of_ne (greatest other (by simp [member])) different

theorem isLatest_of_getLast? (stably : StablySorted key items sorted)
    (last : (sorted.filter test).getLast? = some item) : IsLatest key test items item := by
  have member := List.mem_filter.mp (List.mem_of_getLast? last)
  obtain ⟨before, after, split, atMost, below⟩ := (stably.filter test).exists_split last
  obtain ⟨front, rest, rfl, rfl, filtered⟩ := List.filter_eq_append_iff.mp split
  obtain ⟨passed, back, rfl, fails, -, rfl⟩ := List.filter_eq_cons_iff.mp filtered
  refine ⟨member.2, front ++ passed, back, by simp, ?_, ?_⟩
  · intro other earlier passes
    rcases List.mem_append.mp earlier with inFront | inPassed
    · exact atMost other (List.mem_filter.mpr ⟨inFront, passes⟩)
    · exact absurd passes (fails other inPassed)
  · intro other later passes
    exact below other (List.mem_filter.mpr ⟨later, passes⟩)

theorem isLatest_of_lastUpTo? (stably : StablySorted key items sorted)
    (within : ∀ item ∈ sorted, test item → key item ≤ bound)
    (found : lastUpTo? key bound test sorted = some item) : IsLatest key test items item := by
  rw [lastUpTo?_eq_getLast? stably.ascending within] at found
  exact stably.isLatest_of_getLast? found

theorem isSome_lastUpTo?_iff (stably : StablySorted key items sorted)
    (within : ∀ item ∈ sorted, test item → key item ≤ bound) :
    (lastUpTo? key bound test sorted).isSome ↔ ∃ item ∈ sorted, test item := by
  rw [lastUpTo?_eq_getLast? stably.ascending within, List.getLast?_isSome, Ne,
    List.filter_eq_nil_iff]
  simp

end StablySorted

/-! The search for one number. -/

/-- Halving ends at the last item that is not above the bound, or at the first place if there is no
such item.  The stretch always holds the one at which it ends. -/
theorem narrow_append {front back : List α} (atMost : ∀ item ∈ front, key item ≤ bound)
    (above : ∀ item ∈ back, bound < key item) {base size : Nat}
    (start : base < front.length ∨ base = 0) (stop : front.length ≤ base + size) :
    narrow key bound (front ++ back) base size = front.length - 1 := by
  have inFront : ∀ place : Nat, (front ++ back)[place]?.any (key · ≤ bound) ↔ place < front.length :=
    any_getElem?_append (by simpa using atMost) (by simpa [UInt64.not_le] using above)
  generalize front ++ back = items at inFront
  fun_induction narrow key bound items base size with
  | case1 base size many middle passed induction =>
      exact induction (.inl ((inFront middle).mp passed)) (by omega)
  | case2 base size many middle failed induction =>
      have cut : front.length ≤ middle := Nat.le_of_not_lt (mt (inFront middle).mpr failed)
      exact induction start (by omega)
  | case3 base size few => omega

/-- The search finds the last item in front of the cut, whether or not it has the number. -/
theorem atOrBefore?_append {front back : List α} (atMost : ∀ item ∈ front, key item ≤ bound)
    (above : ∀ item ∈ back, bound < key item) :
    atOrBefore? key bound (front ++ back) = front.getLast? := by
  have place : narrow key bound (front ++ back) 0 (front ++ back).length = front.length - 1 :=
    narrow_append atMost above (.inr rfl) (by simp)
  rw [atOrBefore?, placement, place]
  rcases List.eq_nil_or_concat front with rfl | ⟨earlier, last, rfl⟩
  · cases back with
    | nil => rfl
    | cons first back =>
        have behind : bound < key first := above first List.mem_cons_self
        have notSame : key first ≠ bound := (UInt64.ne_of_lt behind).symm
        simp [notSame, UInt64.not_lt.mpr (UInt64.le_of_lt behind)]
  · have here : (earlier ++ [last] ++ back)[earlier.length]? = some last := by simp
    rw [List.concat_eq_append, List.length_append, List.length_singleton, Nat.add_sub_cancel, here,
      List.getLast?_concat]
    by_cases same : key last = bound
    · simp [same]
    · have less : key last < bound := UInt64.lt_of_le_of_ne (atMost last (by simp)) same
      simp [same, less]

theorem atOrBefore?_eq_getLast?
    (ascending : items.Pairwise fun first second => key first ≤ key second) :
    atOrBefore? key bound items = (items.filter (key · ≤ bound)).getLast? := by
  obtain ⟨front, back, rfl, atMost, above⟩ := exists_cut ascending bound
  have kept : front.filter (key · ≤ bound) = front := by simpa using atMost
  have missed : back.filter (key · ≤ bound) = [] := by simpa [UInt64.not_le] using above
  rw [atOrBefore?_append atMost above, List.filter_append, kept, missed, List.append_nil]

/-- The item's number is the greatest of those that are not above the bound. -/
structure IsNearest (key : α → UInt64) (bound : UInt64) (items : List α) (item : α) : Prop where
  mem : item ∈ items
  atMost : key item ≤ bound
  greatest : ∀ other ∈ items, key other ≤ bound → key other ≤ key item

theorem IsNearest.of_perm {others : List α} (perm : items.Perm others)
    (nearest : IsNearest key bound items item) : IsNearest key bound others item where
  mem := perm.mem_iff.mp nearest.mem
  atMost := nearest.atMost
  greatest other member := nearest.greatest other (perm.mem_iff.mpr member)

theorem IsNearest.map {β : Type} {key : β → UInt64} (change : α → β)
    (nearest : IsNearest (fun item => key (change item)) bound items item) :
    IsNearest key bound (items.map change) (change item) where
  mem := List.mem_map_of_mem nearest.mem
  atMost := nearest.atMost
  greatest := List.forall_mem_map.mpr nearest.greatest

theorem IsNearest.unique (distinct : (items.map key).Nodup) {other : α}
    (nearest : IsNearest key bound items item) (otherIs : IsNearest key bound items other) :
    item = other := by
  have below := nearest.greatest other otherIs.mem otherIs.atMost
  have above := otherIs.greatest item nearest.mem nearest.atMost
  exact List.inj_on_of_nodup_map distinct nearest.mem otherIs.mem (UInt64.le_antisymm above below)

/-- Of items with distinct numbers, what misses only those behind the bound finds just the nearest. -/
theorem eq_some_iff_isNearest (distinct : (items.map key).Nodup) {found : Option α}
    (missed : found = none → ∀ item ∈ items, bound < key item)
    (nearest : ∀ item, found = some item → IsNearest key bound items item) :
    found = some item ↔ IsNearest key bound items item := by
  constructor
  · exact nearest item
  · intro isNearest
    cases result : found with
    | none =>
        have behind := missed result item isNearest.mem
        exact absurd isNearest.atMost (UInt64.not_le.mpr behind)
    | some other => rw [(nearest other result).unique distinct isNearest]

theorem isNearest_of_getLast?
    (ascending : items.Pairwise fun first second => key first ≤ key second)
    (last : (items.filter (key · ≤ bound)).getLast? = some item) :
    IsNearest key bound items item := by
  have member := List.mem_filter.mp (List.mem_of_getLast? last)
  refine ⟨member.1, of_decide_eq_true member.2, ?_⟩
  intro other otherMember otherAtMost
  obtain ⟨front, split⟩ := List.getLast?_eq_some_iff.mp last
  have kept : other ∈ front ++ [item] := by
    rw [← split]
    exact List.mem_filter.mpr ⟨otherMember, decide_eq_true otherAtMost⟩
  have ordered := ascending.filter (key · ≤ bound)
  rw [split] at ordered
  rcases List.mem_append.mp kept with earlier | isLast
  · exact (List.pairwise_append.mp ordered).2.2 other earlier item List.mem_cons_self
  · cases List.mem_singleton.mp isLast
    exact UInt64.le_refl _

theorem getLast?_filter_eq_none_iff :
    (items.filter (key · ≤ bound)).getLast? = none ↔ ∀ item ∈ items, bound < key item := by
  simp [UInt64.not_le]

end Symbolization
