import Mathlib.Data.List.Pairwise

/-!
# Stable sorting by a number

Lists are put in the order of a 64-bit number of their items, such as an address.  Items that share
a number stay in the order in which they were.
-/

namespace Symbolization

variable {α : Type} {key : α → UInt64}

/-- The second list has the items of the first one in the order of their numbers, and those of one
number in the order of the first list. -/
structure StablySorted (key : α → UInt64) (items sorted : List α) : Prop where
  perm : sorted.Perm items
  ascending : sorted.Pairwise fun first second => key first ≤ key second
  stable : ∀ number, sorted.filter (key · == number) = items.filter (key · == number)

def precedes (key : α → UInt64) (first second : α) : Bool := decide (key first ≤ key second)

theorem precedes_trans (first second third : α) (below : precedes key first second = true)
    (above : precedes key second third = true) : precedes key first third = true := by
  simp only [precedes, decide_eq_true_eq] at below above ⊢
  exact UInt64.le_trans below above

theorem precedes_total (first second : α) :
    (precedes key first second || precedes key second first) = true := by
  simp only [precedes, Bool.or_eq_true, decide_eq_true_eq]
  exact UInt64.le_total _ _

theorem filter_mergeSort (items : List α) (number : UInt64) :
    (items.mergeSort (precedes key)).filter (key · == number) =
      items.filter (key · == number) := by
  have equal : (items.filter (key · == number)).Pairwise
      fun first second => precedes key first second = true := by
    apply List.pairwise_of_forall_mem_list
    intro first firstMember second secondMember
    have firstIs : key first = number := by simpa using (List.mem_filter.mp firstMember).2
    have secondIs : key second = number := by simpa using (List.mem_filter.mp secondMember).2
    rw [precedes, decide_eq_true_eq, firstIs, secondIs]
    exact UInt64.le_refl _
  have kept : (items.filter (key · == number)).Sublist (items.mergeSort (precedes key)) :=
    List.sublist_mergeSort precedes_trans precedes_total equal List.filter_sublist
  have inside := kept.filter (key · == number)
  rw [List.filter_filter] at inside
  simp only [Bool.and_self] at inside
  refine (inside.eq_of_length ?_).symm
  exact ((List.mergeSort_perm items _).filter _).length_eq.symm

theorem stablySorted_mergeSort (key : α → UInt64) (items : List α) :
    StablySorted key items (items.mergeSort (precedes key)) where
  perm := List.mergeSort_perm items _
  ascending := by
    have ascending : (items.mergeSort (precedes key)).Pairwise
        fun first second => precedes key first second = true :=
      List.pairwise_mergeSort precedes_trans precedes_total items
    exact ascending.imp of_decide_eq_true
  stable := filter_mergeSort items

end Symbolization
