import Symbolization.Proofs.Scopes.Innermost
import Symbolization.Session.InMemory

/-!
# The worklist over a table of entries

A unit given as a table is searched with a list of the entries that are still to be visited.  At
every moment the entries that the search will see are those of the trees on the list, one tree
behind the other.
-/

namespace Symbolization

namespace MemoryUnit

def tree (unit : MemoryUnit) (offset : Nat) : EntryTree Nat :=
  .node offset ((unit.children offset).attach.map fun child => unit.tree child.1)
  termination_by unit.limit - offset
  decreasing_by
    have := unit.lt_of_mem_children child.2
    omega

variable (unit : MemoryUnit)

theorem tree_eq (offset : Nat) :
    unit.tree offset = .node offset ((unit.children offset).map unit.tree) := by
  rw [tree]
  congr 1
  exact List.attach_map_val (f := unit.tree)

/-- How the entry at an offset stands to an on-disk address. -/
def coverage (address : UInt64) (offset : Nat) : Coverage :=
  if unit.isScope offset then if unit.covers address offset then .covered else .missed
  else .neutral

/-- The entries around the entry at an offset, from the inside out. -/
def around (offset : Nat) : List Nat := (unit.enclosing offset).tail

theorem enclosing_eq (offset : Nat) : unit.enclosing offset = offset :: unit.around offset := by
  rw [around, enclosing]
  split <;> rfl

theorem around_of_mem_children {offset child : Nat} (member : child ∈ unit.children offset) :
    unit.around child = unit.enclosing offset := by
  simp only [children, List.mem_filter, beq_iff_eq] at member
  rw [around, enclosing]
  split
  · rename_i parent
    rw [parent] at member
    cases member.2
  · rename_i parent found
    rw [found] at member
    cases member.2
    rfl

def place (offset : Nat) : EntryPlace Nat := ⟨offset, unit.around offset⟩

def placesAt (offset : Nat) : List (EntryPlace Nat) :=
  (unit.tree offset).placesIn (unit.around offset)

theorem placesInAll_children (offset : Nat) :
    EntryTree.placesInAll (unit.enclosing offset) ((unit.children offset).map unit.tree) =
      (unit.children offset).flatMap unit.placesAt := by
  rw [EntryTree.placesInAll_eq_flatMap, List.flatMap_map, List.flatMap_def, List.flatMap_def]
  congr 1
  apply List.map_congr_left
  intro child member
  rw [placesAt, unit.around_of_mem_children member]

theorem placesAt_eq (offset : Nat) :
    unit.placesAt offset = unit.place offset :: (unit.children offset).flatMap unit.placesAt := by
  rw [placesAt, tree_eq, EntryTree.placesIn, ← enclosing_eq, placesInAll_children, place]

theorem place_child_mem_placesAt {offset parent child : Nat} (isChild : child ∈ unit.children parent)
    (member : unit.place parent ∈ unit.placesAt offset) :
    unit.place child ∈ unit.placesAt offset := by
  rw [placesAt_eq] at member ⊢
  apply List.mem_cons_of_mem
  rw [List.mem_flatMap]
  rcases List.mem_cons.mp member with here | below
  · cases congrArg EntryPlace.entry here
    refine ⟨child, isChild, ?_⟩
    rw [placesAt_eq]
    exact List.mem_cons_self
  · obtain ⟨other, further, member⟩ := List.mem_flatMap.mp below
    exact ⟨other, further, place_child_mem_placesAt isChild member⟩
  termination_by unit.limit - offset
  decreasing_by
    have := unit.lt_of_mem_children further
    omega

/-- The places that a search sees which still has to visit the entries of the list. -/
def awaited (pending : List (Nat × Nat)) : List (EntryPlace Nat) :=
  pending.flatMap fun entry => unit.placesAt entry.2

/-- The entries that a search visits next behind an entry. -/
def below (depth offset : Nat) : List (Nat × Nat) :=
  (unit.children offset).map fun child => (depth + 1, child)

theorem awaited_append (first second : List (Nat × Nat)) :
    unit.awaited (first ++ second) = unit.awaited first ++ unit.awaited second :=
  List.flatMap_append

theorem awaited_below (depth offset : Nat) :
    unit.awaited (unit.below depth offset) = (unit.children offset).flatMap unit.placesAt := by
  rw [awaited, below, List.flatMap_map]

theorem awaited_cons (depth offset : Nat) (pending : List (Nat × Nat)) :
    unit.awaited ((depth, offset) :: pending) =
      unit.place offset :: unit.awaited (unit.below depth offset ++ pending) := by
  rw [awaited_append, awaited_below, awaited, List.flatMap_cons, placesAt_eq]
  rfl

/-- The chain of a scope given by depth and offset. -/
def chainOf (best : Option (Nat × Nat)) : List Nat :=
  (best.map fun scope => unit.enclosing scope.2).getD []

theorem scopes_eq_chainOf (address : UInt64) :
    unit.scopes address = unit.chainOf (unit.innermost address none [(0, 0)]) := by
  rw [scopes, chainOf]
  split <;> simp_all

/-- Whether the depth of an entry is the one that goes with it. -/
def Measured (scope : Nat × Nat) : Prop := (unit.around scope.2).length = scope.1

variable {unit}

theorem length_enclosing {scope : Nat × Nat} (measured : unit.Measured scope) :
    (unit.enclosing scope.2).length = scope.1 + 1 := by
  rw [enclosing_eq, List.length_cons, measured]

theorem chainOf_deeper {best : Option (Nat × Nat)} {scope : Nat × Nat}
    (known : ∀ found ∈ best, unit.Measured found) (measured : unit.Measured scope) :
    unit.chainOf (deeper best scope) = EntryTree.longer (unit.chainOf best) (unit.place scope.2) := by
  have chain : (unit.place scope.2).chain = unit.enclosing scope.2 :=
    (unit.enclosing_eq scope.2).symm
  have length := length_enclosing measured
  rw [EntryTree.longer, chain, length]
  cases best with
  | none => rfl
  | some found =>
      have other := length_enclosing (known found rfl)
      simp only [deeper, chainOf, Option.map_some, Option.getD_some, other]
      by_cases further : found.1 < scope.1
      · rw [if_pos further, if_pos (Nat.succ_lt_succ further)]
        rfl
      · rw [if_neg further, if_neg fun less => further (Nat.lt_of_succ_lt_succ less)]
        rfl

theorem measured_deeper {best : Option (Nat × Nat)} {scope : Nat × Nat}
    (known : ∀ found ∈ best, unit.Measured found) (measured : unit.Measured scope) :
    ∀ found ∈ deeper best scope, unit.Measured found := by
  intro found member
  cases best with
  | none =>
      cases member
      exact measured
  | some other =>
      simp only [deeper] at member
      split at member
      · cases member
        exact measured
      · exact known found member

/-- What a search knows of an entry that it still has to visit. -/
structure Open (unit : MemoryUnit) (address : UInt64) (scope : Nat × Nat) : Prop where
  measured : unit.Measured scope
  sees : ∀ other ∈ unit.around scope.2, unit.coverage address other ≠ .missed

theorem Open.of_mem_below {address : UInt64} {depth offset : Nat} {scope : Nat × Nat}
    (opened : unit.Open address (depth, offset)) (sees : unit.coverage address offset ≠ .missed)
    (member : scope ∈ unit.below depth offset) : unit.Open address scope := by
  obtain ⟨child, inside, rfl⟩ := List.mem_map.mp member
  have around := unit.around_of_mem_children inside
  refine ⟨?_, ?_⟩
  · rw [Measured, around]
    exact length_enclosing opened.measured
  · intro other further
    rw [around, enclosing_eq] at further
    rcases List.mem_cons.mp further with rfl | outside
    · exact sees
    · exact opened.sees other outside

theorem Open.behind {address : UInt64} {depth offset : Nat} {pending : List (Nat × Nat)}
    (opened : ∀ scope ∈ (depth, offset) :: pending, unit.Open address scope)
    (sees : unit.coverage address offset ≠ .missed) :
    ∀ scope ∈ unit.below depth offset ++ pending, unit.Open address scope := by
  intro scope member
  rcases List.mem_append.mp member with inside | further
  · exact (opened (depth, offset) List.mem_cons_self).of_mem_below sees inside
  · exact opened scope (List.mem_cons_of_mem _ further)

theorem chainOf_innermost {address : UInt64} {best : Option (Nat × Nat)}
    {pending : List (Nat × Nat)} (known : ∀ found ∈ best, unit.Measured found)
    (opened : ∀ scope ∈ pending, unit.Open address scope) :
    unit.chainOf (unit.innermost address best pending) =
      ((unit.awaited pending).filter (·.isVisibleScope (unit.coverage address))).foldl
        EntryTree.longer (unit.chainOf best) := by
  fun_induction unit.innermost address best pending with
  | case1 best => rfl
  | case2 best depth offset pending next isScope covers induction =>
      have here := opened (depth, offset) List.mem_cons_self
      have covered : unit.coverage address offset = .covered := by
        rw [coverage, if_pos isScope, if_pos covers]
      have visible : (unit.place offset).isVisibleScope (unit.coverage address) :=
        EntryPlace.isVisibleScope_iff.mpr ⟨covered, here.sees⟩
      rw [awaited_cons, List.filter_cons, if_pos visible, List.foldl_cons,
        ← chainOf_deeper known here.measured]
      exact induction (measured_deeper known here.measured)
        (Open.behind opened (by simp [covered]))
  | case3 best depth offset pending isScope misses induction =>
      have missed : unit.coverage address offset = .missed := by
        rw [coverage, if_pos isScope, if_neg misses]
      have hidden : ¬(unit.place offset).isVisibleScope (unit.coverage address) := by
        simp [EntryPlace.isVisibleScope_iff, place, missed]
      have skipped : (unit.awaited (unit.below depth offset)).filter
          (·.isVisibleScope (unit.coverage address)) = [] := by
        rw [awaited_below, ← placesInAll_children, enclosing_eq]
        exact EntryTree.filter_isVisibleScope_placesInAll missed _
      rw [awaited_cons, List.filter_cons, if_neg hidden, awaited_append, List.filter_append,
        skipped, List.nil_append]
      exact induction known fun scope member => opened scope (List.mem_cons_of_mem _ member)
  | case4 best depth offset pending next noScope induction =>
      have neutral : unit.coverage address offset = .neutral := by
        rw [coverage, if_neg noScope]
      have hidden : ¬(unit.place offset).isVisibleScope (unit.coverage address) := by
        simp [EntryPlace.isVisibleScope_iff, place, neutral]
      rw [awaited_cons, List.filter_cons, if_neg hidden]
      exact induction known (Open.behind opened (by simp [neutral]))

theorem around_zero : unit.around 0 = [] := by
  rw [around, enclosing]
  split
  · rfl
  · rename_i parent found
    simp [parent?, entryAt?] at found

theorem placesAt_zero : unit.placesAt 0 = (unit.tree 0).places := by
  rw [placesAt, around_zero, EntryTree.places]

theorem place_mem_tree {offset : Nat} (inside : offset < unit.limit) :
    unit.place offset ∈ (unit.tree 0).places := by
  rw [← placesAt_zero]
  induction offset using Nat.strongRecOn with
  | ind offset induction =>
      cases offset with
      | zero =>
          rw [placesAt_eq]
          exact List.mem_cons_self
      | succ index =>
          have present : index < unit.entries.size := Nat.lt_of_succ_lt_succ inside
          have found : unit.parent? (index + 1) = some unit.entries[index].parent := by
            simp [parent?, entryAt?, present]
          have before := unit.parent_lt found
          have isChild : index + 1 ∈ unit.children unit.entries[index].parent := by
            simp [children, found, inside]
          exact unit.place_child_mem_placesAt isChild
            (induction _ before (Nat.lt_trans before inside))

/-- The search of a table finds the innermost scope of the tree of the unit. -/
theorem isInnermost_scopes (unit : MemoryUnit) (address : UInt64) :
    (unit.tree 0).IsInnermost (unit.coverage address) (unit.scopes address) := by
  have opened : ∀ scope ∈ [(0, 0)], unit.Open address scope := by
    intro scope member
    cases List.mem_singleton.mp member
    exact ⟨by rw [Measured, around_zero, List.length_nil], by simp [around_zero]⟩
  have places : unit.awaited [(0, 0)] = (unit.tree 0).places := by
    rw [awaited, List.flatMap_singleton, placesAt_zero]
  rw [scopes_eq_chainOf, chainOf_innermost (by simp) opened, places]
  exact (unit.tree 0).isInnermost_foldl (unit.coverage address)

end MemoryUnit

end Symbolization
