import Symbolization.Address.Interval

/-!
# Boxes around intervals

The box that covering leads to starts at the least start that is not zero, or at zero if every
start is zero, and it ends at the greatest end.  An interval that starts at zero is therefore not
inside of a box that others gave a later start.

Only one box is like that.  So it matters neither in which order intervals are covered, nor how they
are grouped, nor how often each of them comes.
-/

namespace Symbolization

namespace AddressInterval

theorem contains_iff {interval : AddressInterval} {address : UInt64} :
    interval.contains address ↔ interval.low ≤ address ∧ address < interval.high := by
  rw [contains, Bool.and_eq_true, decide_eq_true_eq, decide_eq_true_eq]

/-- Whether `start` is the least of the starts that are not zero, or zero if there is none. -/
structure IsLeastStart (starts : List UInt64) (start : UInt64) : Prop where
  le : ∀ other ∈ starts, other ≠ 0 → start ≠ 0 ∧ start ≤ other
  mem : start ≠ 0 → start ∈ starts

/-- Whether `finish` is the greatest of the ends, or zero if there is none. -/
structure IsGreatestEnd (ends : List UInt64) (finish : UInt64) : Prop where
  le : ∀ other ∈ ends, other ≤ finish
  mem : finish ≠ 0 → finish ∈ ends

/-- Whether the box starts at the least start that is not zero, or at zero if there is none, and ends
at the greatest end. -/
structure IsBox (intervals : List AddressInterval) (box : AddressInterval) : Prop where
  low : IsLeastStart (intervals.map AddressInterval.low) box.low
  high : IsGreatestEnd (intervals.map AddressInterval.high) box.high

theorem leastSet_eq (left right : UInt64) :
    leastSet left right = left ∨ leastSet left right = right := by
  unfold leastSet
  split
  · exact .inr rfl
  · exact .inl rfl

theorem leastSet_left {left : UInt64} (right : UInt64) (isSet : left ≠ 0) :
    leastSet left right ≠ 0 ∧ leastSet left right ≤ left := by
  unfold leastSet
  split
  · rename_i later
    obtain ⟨rightSet, leftUnset | less⟩ := later
    · exact absurd leftUnset isSet
    · exact ⟨rightSet, UInt64.le_of_lt less⟩
  · exact ⟨isSet, UInt64.le_refl left⟩

theorem leastSet_right (left : UInt64) {right : UInt64} (isSet : right ≠ 0) :
    leastSet left right ≠ 0 ∧ leastSet left right ≤ right := by
  unfold leastSet
  split
  · exact ⟨isSet, UInt64.le_refl right⟩
  · rename_i earlier
    have leftSet : left ≠ 0 := fun unset => earlier ⟨isSet, .inl unset⟩
    have notLess : ¬right < left := fun less => earlier ⟨isSet, .inr less⟩
    exact ⟨leftSet, UInt64.not_lt.mp notLess⟩

theorem greatestSet_eq (left right : UInt64) :
    greatestSet left right = left ∨ greatestSet left right = right := by
  unfold greatestSet
  split
  · exact .inr rfl
  · exact .inl rfl

theorem le_greatestSet (left right : UInt64) :
    left ≤ greatestSet left right ∧ right ≤ greatestSet left right := by
  unfold greatestSet
  split
  · rename_i later
    obtain ⟨_, leftUnset | less⟩ := later
    · exact ⟨leftUnset ▸ UInt64.zero_le, UInt64.le_refl right⟩
    · exact ⟨UInt64.le_of_lt less, UInt64.le_refl right⟩
  · rename_i earlier
    refine ⟨UInt64.le_refl left, ?_⟩
    by_cases unset : right = 0
    · exact unset ▸ UInt64.zero_le
    · exact UInt64.not_lt.mp fun less => earlier ⟨unset, .inr less⟩

namespace IsLeastStart

variable {left right starts others : List UInt64} {first second : UInt64}

theorem append (before : IsLeastStart left first) (after : IsLeastStart right second) :
    IsLeastStart (left ++ right) (leastSet first second) := by
  constructor
  · intro other member isSet
    rcases List.mem_append.mp member with inLeft | inRight
    · obtain ⟨firstSet, atMost⟩ := before.le other inLeft isSet
      obtain ⟨mergedSet, merged⟩ := leastSet_left second firstSet
      exact ⟨mergedSet, UInt64.le_trans merged atMost⟩
    · obtain ⟨secondSet, atMost⟩ := after.le other inRight isSet
      obtain ⟨mergedSet, merged⟩ := leastSet_right first secondSet
      exact ⟨mergedSet, UInt64.le_trans merged atMost⟩
  · intro isSet
    apply List.mem_append.mpr
    rcases leastSet_eq first second with isFirst | isSecond
    · rw [isFirst] at isSet ⊢
      exact .inl (before.mem isSet)
    · rw [isSecond] at isSet ⊢
      exact .inr (after.mem isSet)

theorem le_of_subset (subset : ∀ other ∈ others, other ∈ starts)
    (least : IsLeastStart starts first) (leastToo : IsLeastStart others second)
    (isSet : second ≠ 0) : first ≠ 0 ∧ first ≤ second :=
  least.le second (subset second (leastToo.mem isSet)) isSet

theorem unique (same : ∀ other, other ∈ starts ↔ other ∈ others)
    (least : IsLeastStart starts first) (leastToo : IsLeastStart others second) :
    first = second := by
  have below := le_of_subset (fun other => (same other).mpr) least leastToo
  have above := le_of_subset (fun other => (same other).mp) leastToo least
  by_cases unset : second = 0
  · by_cases unsetToo : first = 0
    · rw [unset, unsetToo]
    · exact absurd unset (above unsetToo).1
  · exact UInt64.le_antisymm (below unset).2 (above (below unset).1).2

end IsLeastStart

namespace IsGreatestEnd

variable {left right ends others : List UInt64} {first second : UInt64}

theorem append (before : IsGreatestEnd left first) (after : IsGreatestEnd right second) :
    IsGreatestEnd (left ++ right) (greatestSet first second) := by
  obtain ⟨aboveFirst, aboveSecond⟩ := le_greatestSet first second
  constructor
  · intro other member
    rcases List.mem_append.mp member with inLeft | inRight
    · exact UInt64.le_trans (before.le other inLeft) aboveFirst
    · exact UInt64.le_trans (after.le other inRight) aboveSecond
  · intro isSet
    apply List.mem_append.mpr
    rcases greatestSet_eq first second with isFirst | isSecond
    · rw [isFirst] at isSet ⊢
      exact .inl (before.mem isSet)
    · rw [isSecond] at isSet ⊢
      exact .inr (after.mem isSet)

theorem le_of_subset (subset : ∀ other ∈ ends, other ∈ others)
    (greatest : IsGreatestEnd ends first) (greatestToo : IsGreatestEnd others second) :
    first ≤ second := by
  by_cases unset : first = 0
  · exact unset ▸ UInt64.zero_le
  · exact greatestToo.le first (subset first (greatest.mem unset))

theorem unique (same : ∀ other, other ∈ ends ↔ other ∈ others)
    (greatest : IsGreatestEnd ends first) (greatestToo : IsGreatestEnd others second) :
    first = second :=
  UInt64.le_antisymm (le_of_subset (fun other => (same other).mp) greatest greatestToo)
    (le_of_subset (fun other => (same other).mpr) greatestToo greatest)

end IsGreatestEnd

namespace IsBox

variable {intervals left right others : List AddressInterval} {box first second : AddressInterval}

theorem nil : IsBox [] unset := by
  constructor <;> constructor <;> simp [unset]

theorem single (interval : AddressInterval) : IsBox [interval] interval := by
  constructor <;> constructor <;> simp

theorem append (before : IsBox left first) (after : IsBox right second) :
    IsBox (left ++ right) (first.cover second) := by
  constructor
  · rw [List.map_append]
    exact before.low.append after.low
  · rw [List.map_append]
    exact before.high.append after.high

/-- The box depends on nothing but which intervals there are. -/
theorem unique (same : ∀ interval, interval ∈ intervals ↔ interval ∈ others)
    (isBox : IsBox intervals first) (isBoxToo : IsBox others second) : first = second := by
  have lows : ∀ low, low ∈ intervals.map AddressInterval.low ↔
      low ∈ others.map AddressInterval.low := by simp [same]
  have highs : ∀ high, high ∈ intervals.map AddressInterval.high ↔
      high ∈ others.map AddressInterval.high := by simp [same]
  have low := isBox.low.unique lows isBoxToo.low
  have high := isBox.high.unique highs isBoxToo.high
  cases first
  cases second
  cases low
  cases high
  rfl

theorem high_le (isBox : IsBox intervals box) {interval : AddressInterval}
    (member : interval ∈ intervals) : interval.high ≤ box.high :=
  isBox.high.le _ (List.mem_map_of_mem member)

/-- Boxes of groups of intervals may be covered in place of the intervals. -/
theorem foldl_groups {α : Type} {groups : List α} {intervalsOf : α → List AddressInterval}
    {boxOf : α → AddressInterval} (isBox : IsBox left box)
    (each : ∀ group ∈ groups, IsBox (intervalsOf group) (boxOf group)) :
    IsBox (left ++ groups.flatMap intervalsOf) ((groups.map boxOf).foldl cover box) := by
  induction groups generalizing left box with
  | nil => rwa [List.flatMap_nil, List.append_nil]
  | cons group groups induction =>
      obtain ⟨here, others⟩ := List.forall_mem_cons.mp each
      rw [List.flatMap_cons, ← List.append_assoc]
      exact induction (isBox.append here) others

theorem of_groups {α : Type} {groups : List α} {intervalsOf : α → List AddressInterval}
    {boxOf : α → AddressInterval}
    (each : ∀ group ∈ groups, IsBox (intervalsOf group) (boxOf group)) :
    IsBox (groups.flatMap intervalsOf) ((groups.map boxOf).foldl cover unset) :=
  nil.foldl_groups each

theorem foldl_cover (intervals : List AddressInterval) :
    IsBox intervals (intervals.foldl cover unset) := by
  have each : ∀ interval ∈ intervals, IsBox [interval] (id interval) :=
    fun interval _ => single interval
  simpa using of_groups each

end IsBox

/-! The laws of covering say that two boxes lie around the same intervals. -/

instance : Std.Associative cover where
  assoc first second third := by
    have left := ((IsBox.single first).append (.single second)).append (.single third)
    have right := (IsBox.single first).append ((IsBox.single second).append (.single third))
    exact left.unique (by simp) right

instance : Std.Commutative cover where
  comm first second := by
    have left := (IsBox.single first).append (.single second)
    have right := (IsBox.single second).append (.single first)
    exact left.unique (by simp [or_comm]) right

instance : Std.IdempotentOp cover where
  idempotent interval := by
    have twice := (IsBox.single interval).append (.single interval)
    exact twice.unique (by simp) (.single interval)

instance : Std.LawfulIdentity cover unset where
  left_id interval := by
    have box := IsBox.nil.append (.single interval)
    exact box.unique (by simp) (.single interval)
  right_id interval := by
    have box := (IsBox.single interval).append .nil
    exact box.unique (by simp) (.single interval)

/-- Ways to apply covering.  Any interval may come anywhere, and more than once. -/
inductive Covering where
  | unset
  | one (interval : AddressInterval)
  | cover (left right : Covering)

namespace Covering

def intervals : Covering → List AddressInterval
  | .unset => []
  | .one interval => [interval]
  | .cover left right => left.intervals ++ right.intervals

def box : Covering → AddressInterval
  | .unset => AddressInterval.unset
  | .one interval => interval
  | .cover left right => left.box.cover right.box

theorem isBox_box (covering : Covering) : IsBox covering.intervals covering.box := by
  induction covering with
  | unset => exact .nil
  | one interval => exact .single interval
  | cover left right leftIs rightIs => exact leftIs.append rightIs

theorem box_eq {left right : Covering}
    (same : ∀ interval, interval ∈ left.intervals ↔ interval ∈ right.intervals) :
    left.box = right.box :=
  left.isBox_box.unique same right.isBox_box

end Covering

end AddressInterval

end Symbolization
