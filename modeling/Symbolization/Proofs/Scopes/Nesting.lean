import Mathlib.Data.List.Sort
import Symbolization.Proofs.Scopes.Innermost

/-!
# Properly nested scopes

Where no scope reaches beyond those around it, and none shares an address with one that lies
elsewhere, the scopes that cover an address lie one inside the other.  The innermost of them then
leads through all the others.
-/

namespace Symbolization

namespace EntryPlace

variable {α : Type}

/-- `outer` is one of the places around `inner`. -/
def Encloses (outer inner : EntryPlace α) : Prop := outer.chain <:+ inner.around

theorem Encloses.depth_lt {outer inner : EntryPlace α} (encloses : outer.Encloses inner) :
    outer.depth < inner.depth :=
  encloses.length_le

theorem pairwise_along (chain : List α) :
    (along chain).Pairwise fun inner outer => outer.Encloses inner := by
  induction chain with
  | nil => exact .nil
  | cons entry around induction =>
      refine .cons ?_ induction
      intro place member
      exact mem_along.mp member

instance irrefl_encloses : Std.Irrefl fun inner outer : EntryPlace α => outer.Encloses inner where
  irrefl _ encloses := Nat.lt_irrefl _ encloses.depth_lt

instance antisymm_encloses :
    Std.Antisymm fun inner outer : EntryPlace α => outer.Encloses inner where
  antisymm _ _ outward inward := absurd outward.depth_lt (Nat.lt_asymm inward.depth_lt)

end EntryPlace

namespace EntryTree

variable {α : Type}

/-- No scope covers an address that a scope around it misses, and of two scopes that cover an
address one lies in the other. -/
structure ProperlyNested (coverage : UInt64 → α → Coverage) (tree : EntryTree α) : Prop where
  inside : ∀ place ∈ tree.places, ∀ outer ∈ place.around, ∀ address,
    coverage address place.entry = .covered → coverage address outer ≠ .missed
  apart : tree.places.Pairwise fun earlier later => ¬earlier.Encloses later →
    ∀ address, ¬(coverage address earlier.entry = .covered ∧
      coverage address later.entry = .covered)

/-- The places of the scopes that cover an address. -/
def covering (coverage : α → Coverage) (tree : EntryTree α) : List (EntryPlace α) :=
  tree.places.filter fun place => coverage place.entry == .covered

section

variable {coverage : UInt64 → α → Coverage} {tree : EntryTree α}

theorem ProperlyNested.filter_isVisibleScope (nested : tree.ProperlyNested coverage)
    (address : UInt64) :
    tree.places.filter (·.isVisibleScope (coverage address)) =
      tree.covering (coverage address) := by
  apply List.filter_congr
  intro place member
  rw [Bool.eq_iff_iff, EntryPlace.isVisibleScope_iff, beq_iff_eq]
  constructor
  · intro visible
    exact visible.1
  · intro covered
    exact ⟨covered, fun outer around => nested.inside place member outer around address covered⟩

theorem ProperlyNested.pairwise_covering (nested : tree.ProperlyNested coverage)
    (address : UInt64) : (tree.covering (coverage address)).Pairwise EntryPlace.Encloses := by
  refine (nested.apart.filter _).imp_of_mem ?_
  intro earlier later first second apart
  by_contra! outside
  simp only [List.mem_filter, beq_iff_eq] at first second
  exact apart outside address ⟨first.2, second.2⟩

/-- The innermost scope leads through all scopes that cover the address. -/
theorem IsInnermost.mem_along_iff (nested : tree.ProperlyNested coverage) {address : UInt64}
    {chain : List α} (innermost : tree.IsInnermost (coverage address) chain)
    {place : EntryPlace α} (covered : coverage address place.entry = .covered) :
    place ∈ EntryPlace.along chain ↔ place ∈ tree.places := by
  have pairwise := nested.pairwise_covering address
  have listed : place ∈ tree.covering (coverage address) ↔ place ∈ tree.places := by
    simp [covering, covered]
  rw [← listed]
  cases innermost with
  | nothing unseen =>
      rw [nested.filter_isVisibleScope] at unseen
      simp [unseen, EntryPlace.along]
  | found deepest before after seen deeper noDeeper =>
      rw [nested.filter_isVisibleScope] at seen
      rw [EntryPlace.mem_along]
      constructor
      · intro suffix
        have member : deepest ∈ tree.covering (coverage address) := by simp [seen]
        exact listed.mpr (mem_places_of_suffix (List.mem_of_mem_filter member) suffix)
      · intro member
        rw [seen] at member pairwise
        have behind := List.pairwise_append.mp pairwise
        rcases List.mem_append.mp member with early | late
        · have encloses := behind.2.2 place early deepest List.mem_cons_self
          exact encloses.trans (List.suffix_cons _ _)
        · rcases List.mem_cons.mp late with rfl | after
          · exact List.suffix_refl _
          · have encloses := (List.pairwise_cons.mp behind.2.1).1 place after
            exact absurd encloses.depth_lt (Nat.not_lt.mpr (noDeeper place after))

theorem IsInnermost.filter_along (nested : tree.ProperlyNested coverage) {address : UInt64}
    {chain : List α} (innermost : tree.IsInnermost (coverage address) chain) :
    (EntryPlace.along chain).filter (fun place => coverage address place.entry == .covered) =
      (tree.covering (coverage address)).reverse := by
  have inward := nested.pairwise_covering address
  refine List.Pairwise.eq_of_mem_iff ((EntryPlace.pairwise_along chain).filter _)
    (List.pairwise_reverse.mpr inward) ?_
  intro place
  rw [List.mem_reverse, covering, List.mem_filter, List.mem_filter]
  apply and_congr_left
  intro covered
  exact innermost.mem_along_iff nested (beq_iff_eq.mp covered)

theorem IsInnermost.sees {coverage : α → Coverage} {chain : List α}
    (innermost : tree.IsInnermost coverage chain) :
    ∀ entry ∈ chain, coverage entry ≠ .missed := by
  cases innermost with
  | nothing => simp
  | found deepest before after seen =>
      have member : deepest ∈ tree.places.filter (·.isVisibleScope coverage) := by simp [seen]
      have visible := EntryPlace.isVisibleScope_iff.mp (List.mem_filter.mp member).2
      intro entry inside
      rcases List.mem_cons.mp inside with rfl | around
      · simp [visible.1]
      · exact visible.2 entry around

/-- Scopes of some kind that are met from the innermost scope outward are all of that kind that
cover the address, in the order opposite to that of the tree. -/
theorem IsInnermost.filter_chain (nested : tree.ProperlyNested coverage) {address : UInt64}
    {chain : List α} (innermost : tree.IsInnermost (coverage address) chain) {counts : α → Bool}
    (isScope : ∀ entry, counts entry → coverage address entry ≠ .neutral) :
    chain.filter counts =
      ((tree.covering (coverage address)).filter fun place => counts place.entry).reverse.map
        (·.entry) := by
  have covered : ∀ place ∈ EntryPlace.along chain,
      counts place.entry = (counts place.entry && coverage address place.entry == .covered) := by
    intro place member
    have inside : place.entry ∈ chain := by
      rw [← EntryPlace.map_along chain]
      exact List.mem_map_of_mem member
    have sees := innermost.sees place.entry inside
    cases counted : counts place.entry with
    | false => rfl
    | true =>
        have scope := isScope place.entry counted
        cases covers : coverage address place.entry <;> simp_all
  calc chain.filter counts
      = ((EntryPlace.along chain).filter fun place => counts place.entry).map (·.entry) := by
        rw [← Function.comp_def counts, ← List.filter_map, EntryPlace.map_along]
    _ = (((EntryPlace.along chain).filter fun place =>
          coverage address place.entry == .covered).filter fun place =>
            counts place.entry).map (·.entry) := by
        rw [List.filter_filter, List.filter_congr covered]
    _ = _ := by rw [innermost.filter_along nested, List.filter_reverse]

end

end EntryTree

end Symbolization
