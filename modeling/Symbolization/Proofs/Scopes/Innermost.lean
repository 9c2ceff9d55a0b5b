import Symbolization.Proofs.Scopes.Tree

/-!
# The innermost scope

An entry sees an address unless a scope at or above it misses the address.  The deepest scope that
sees the address is the innermost one.
-/

namespace Symbolization

namespace EntryPlace

variable {α β : Type}

/-- Whether every scope from the root down to the entry covers the address. -/
def isVisible (coverage : α → Coverage) (place : EntryPlace α) : Bool :=
  place.chain.all fun entry => coverage entry != .missed

def isVisibleScope (coverage : α → Coverage) (place : EntryPlace α) : Bool :=
  coverage place.entry != .neutral && place.isVisible coverage

theorem isVisibleScope_iff {coverage : α → Coverage} {place : EntryPlace α} :
    place.isVisibleScope coverage ↔
      coverage place.entry = .covered ∧ ∀ entry ∈ place.around, coverage entry ≠ .missed := by
  cases covers : coverage place.entry <;> simp [isVisibleScope, isVisible, chain, covers]

theorem isVisibleScope_map (coverage : β → Coverage) (transform : α → β) (place : EntryPlace α) :
    (place.map transform).isVisibleScope coverage =
      place.isVisibleScope fun entry => coverage (transform entry) := by
  simp only [isVisibleScope, isVisible, chain, map, List.all_cons, List.all_map]
  rfl

end EntryPlace

namespace EntryTree

variable {α β : Type}

theorem filter_isVisibleScope_placesInAll {coverage : α → Coverage} {entry : α} {around : List α}
    (misses : coverage entry = .missed) (trees : List (EntryTree α)) :
    (placesInAll (entry :: around) trees).filter (·.isVisibleScope coverage) = [] := by
  rw [List.filter_eq_nil_iff]
  intro place member visible
  have inside : entry ∈ place.around :=
    (around_suffix_of_mem_placesInAll member).subset List.mem_cons_self
  exact (EntryPlace.isVisibleScope_iff.mp visible).2 entry inside misses

/-- `chain` leads from the innermost scope of a tree up to its root: from the deepest visible scope,
the first one in pre-order if several are equally deep.  It is empty if no scope is visible. -/
inductive IsInnermost (coverage : α → Coverage) (tree : EntryTree α) : List α → Prop where
  | nothing (unseen : tree.places.filter (·.isVisibleScope coverage) = []) :
      IsInnermost coverage tree []
  | found (place : EntryPlace α) (before after : List (EntryPlace α))
      (seen : tree.places.filter (·.isVisibleScope coverage) = before ++ place :: after)
      (deeper : ∀ other ∈ before, other.depth < place.depth)
      (noDeeper : ∀ other ∈ after, other.depth ≤ place.depth) :
      IsInnermost coverage tree place.chain

theorem IsInnermost.map {coverage : β → Coverage} {transform : α → β} {tree : EntryTree α}
    {chain : List α}
    (innermost : tree.IsInnermost (fun entry => coverage (transform entry)) chain) :
    (tree.map transform).IsInnermost coverage (chain.map transform) := by
  have visible : (tree.map transform).places.filter (·.isVisibleScope coverage) =
      (tree.places.filter (·.isVisibleScope fun entry => coverage (transform entry))).map
        (·.map transform) := by
    rw [places_map, List.filter_map]
    congr 1
    apply List.filter_congr
    intro place member
    exact place.isVisibleScope_map coverage transform
  have depth : ∀ place : EntryPlace α, (place.map transform).depth = place.depth :=
    fun place => List.length_map transform
  cases innermost with
  | nothing unseen => exact .nothing (by rw [visible, unseen, List.map_nil])
  | found place before after seen deeper noDeeper =>
      refine .found (place.map transform) (before.map (·.map transform))
        (after.map (·.map transform)) ?_ ?_ ?_
      · rw [visible, seen, List.map_append, List.map_cons]
      · intro other member
        obtain ⟨first, inside, rfl⟩ := List.mem_map.mp member
        rw [depth, depth]
        exact deeper first inside
      · intro other member
        obtain ⟨later, inside, rfl⟩ := List.mem_map.mp member
        rw [depth, depth]
        exact noDeeper later inside

theorem IsInnermost.congr {left right : α → Coverage} {tree : EntryTree α} {chain : List α}
    (agree : ∀ node ∈ tree.stream, left node.2 = right node.2)
    (innermost : tree.IsInnermost left chain) : tree.IsInnermost right chain := by
  have same : tree.places.filter (·.isVisibleScope left) =
      tree.places.filter (·.isVisibleScope right) := by
    apply List.filter_congr
    intro place member
    have alike : ∀ entry ∈ place.chain, left entry = right entry := by
      intro entry inside
      obtain ⟨node, streamed, rfl⟩ := exists_mem_stream member inside
      exact agree node streamed
    rw [Bool.eq_iff_iff, EntryPlace.isVisibleScope_iff, EntryPlace.isVisibleScope_iff,
      alike place.entry List.mem_cons_self]
    apply and_congr_right
    intro covered
    refine forall₂_congr ?_
    intro entry around
    rw [alike entry (List.mem_cons_of_mem _ around)]
  cases innermost with
  | nothing unseen => exact .nothing (same ▸ unseen)
  | found place before after seen deeper noDeeper =>
      exact .found place before after (same ▸ seen) deeper noDeeper

theorem length_le_of_split {before after earlier later : List (EntryPlace α)}
    {place other : EntryPlace α} (split : before ++ place :: after = earlier ++ other :: later)
    (noDeeper : ∀ next ∈ after, next.depth ≤ place.depth)
    (deepest : ∀ next ∈ earlier, next.depth < other.depth) : earlier.length ≤ before.length := by
  rcases List.append_eq_append_iff.mp split with ⟨between, rfl, rest⟩ | ⟨between, rfl, rest⟩
  · cases between with
    | nil => simp
    | cons head between =>
        cases rest
        have less := deepest place (by simp)
        have atMost := noDeeper other (by simp)
        omega
  · simp

theorem IsInnermost.unique {coverage : α → Coverage} {tree : EntryTree α} {first second : List α}
    (left : tree.IsInnermost coverage first) (right : tree.IsInnermost coverage second) :
    first = second := by
  cases left with
  | nothing unseen =>
      cases right with
      | nothing => rfl
      | found place before after seen => simp [seen] at unseen
  | found place before after seen deeper noDeeper =>
      cases right with
      | nothing unseen => simp [seen] at unseen
      | found other earlier later split deepest noDeepest =>
          rw [seen] at split
          have lengths : before.length = earlier.length :=
            Nat.le_antisymm (length_le_of_split split.symm noDeepest deeper)
              (length_le_of_split split noDeeper deepest)
          cases (List.append_inj split lengths).2
          rfl

/-! The innermost scope by keeping the longest chain. -/

/-- The longer of a chain and that of a place, the first one if they are equally long. -/
def longer (best : List α) (place : EntryPlace α) : List α :=
  if best.length < place.chain.length then place.chain else best

theorem le_length_longer (best : List α) (place : EntryPlace α) :
    best.length ≤ (longer best place).length ∧ place.chain.length ≤ (longer best place).length := by
  rw [longer]
  split
  · omega
  · omega

theorem foldl_longer_cases (best : List α) (places : List (EntryPlace α)) :
    (places.foldl longer best = best ∧ ∀ place ∈ places, place.chain.length ≤ best.length) ∨
      ∃ place before after, places = before ++ place :: after ∧
        places.foldl longer best = place.chain ∧ best.length < place.chain.length ∧
        (∀ other ∈ before, other.depth < place.depth) ∧
        ∀ other ∈ after, other.depth ≤ place.depth := by
  induction places generalizing best with
  | nil => exact .inl ⟨rfl, by simp⟩
  | cons first places induction =>
      have atLeast := le_length_longer best first
      rw [List.foldl_cons]
      rcases induction (longer best first) with
        ⟨kept, bounded⟩ | ⟨place, before, after, split, found, rises, deeper, noDeeper⟩
      · rw [kept]
        by_cases shorter : best.length < first.chain.length
        · rw [longer, if_pos shorter] at bounded ⊢
          refine .inr ⟨first, [], places, rfl, rfl, shorter, by simp, ?_⟩
          intro other member
          exact Nat.le_of_succ_le_succ (bounded other member)
        · rw [longer, if_neg shorter] at bounded ⊢
          refine .inl ⟨rfl, ?_⟩
          intro place member
          rcases List.mem_cons.mp member with rfl | behind
          · exact Nat.le_of_not_lt shorter
          · exact bounded place behind
      · refine .inr ⟨place, first :: before, after, by rw [split, List.cons_append], found,
          Nat.lt_of_le_of_lt atLeast.1 rises, ?_, noDeeper⟩
        intro other member
        rcases List.mem_cons.mp member with rfl | behind
        · exact Nat.lt_of_succ_lt_succ (Nat.lt_of_le_of_lt atLeast.2 rises)
        · exact deeper other behind

theorem isInnermost_foldl (coverage : α → Coverage) (tree : EntryTree α) :
    tree.IsInnermost coverage
      ((tree.places.filter (·.isVisibleScope coverage)).foldl longer []) := by
  rcases foldl_longer_cases [] (tree.places.filter (·.isVisibleScope coverage)) with
    ⟨kept, bounded⟩ | ⟨place, before, after, split, found, -, deeper, noDeeper⟩
  · rw [kept]
    apply IsInnermost.nothing
    rw [List.eq_nil_iff_forall_not_mem]
    intro place member
    exact absurd (bounded place member) (by simp [EntryPlace.chain])
  · rw [found]
    exact .found place before after split deeper noDeeper

end EntryTree

end Symbolization
