import Mathlib.Data.List.Nodup
import Symbolization.Elf.File
import Symbolization.Proofs.Order.Search

/-!
# What a symbol map finds

A map puts its symbols in the order of their addresses, and halves this order to find the last one
that is not behind an address.  Of the symbols that a file has for one address only one is kept, so
the symbol that is found there has no rival.
-/

namespace Symbolization

namespace SymbolMap

variable {symbols : List ExportedSymbol} {address : UInt64} {symbol : ExportedSymbol}

theorem stablySorted_ofList (symbols : List ExportedSymbol) :
    StablySorted (·.address) symbols (ofList symbols).symbols :=
  stablySorted_mergeSort (·.address) symbols

theorem find?_ofList_eq_none_iff :
    (ofList symbols).find? address = none ↔ ∀ symbol ∈ symbols, address < symbol.address := by
  have sorted := stablySorted_ofList symbols
  rw [find?, atOrBefore?_eq_getLast? sorted.ascending, getLast?_filter_eq_none_iff]
  simp only [sorted.perm.mem_iff]

theorem isNearest_of_find? (found : (ofList symbols).find? address = some symbol) :
    IsNearest (·.address) address symbols symbol := by
  have sorted := stablySorted_ofList symbols
  rw [find?, atOrBefore?_eq_getLast? sorted.ascending] at found
  exact (isNearest_of_getLast? sorted.ascending found).of_perm sorted.perm

/-- Where no address has two symbols, being nearest leaves no choice. -/
theorem find?_ofList_eq_some_iff (distinct : (symbols.map (·.address)).Nodup) :
    (ofList symbols).find? address = some symbol ↔
      IsNearest (·.address) address symbols symbol :=
  eq_some_iff_isNearest distinct find?_ofList_eq_none_iff.mp fun _ => isNearest_of_find?

end SymbolMap

namespace Elf.SymbolTable

namespace Candidate

theorem le_iff {left right : Candidate} : left.le right ↔
    left.exported.address < right.exported.address ∨
      left.exported.address = right.exported.address ∧
        (left.rank < right.rank ∨ left.rank = right.rank ∧ right.index ≤ left.index) := by
  simp only [le, Ordering.isLE_then_iff_or, Std.compare_eq_lt, Std.compare_eq_iff_eq,
    Std.isLE_compare]

theorem le_trans (first second third : Candidate) (below : first.le second = true)
    (above : second.le third = true) : first.le third = true := by
  simp only [le_iff, UInt64.lt_iff_toNat_lt, ← UInt64.toNat_inj] at below above ⊢
  omega

theorem le_total (first second : Candidate) : (first.le second || second.le first) = true := by
  simp only [Bool.or_eq_true, le_iff, UInt64.lt_iff_toNat_lt, ← UInt64.toNat_inj]
  omega

theorem address_le {left right : Candidate} (ordered : left.le right = true) :
    left.exported.address ≤ right.exported.address := by
  rcases le_iff.mp ordered with less | ⟨same, -⟩
  · exact UInt64.le_of_lt less
  · exact UInt64.le_of_eq same

end Candidate

theorem keepFirst_sublist (candidates : List Candidate) :
    (keepFirst candidates).Sublist candidates := by
  fun_induction keepFirst candidates with
  | case1 => exact .slnil
  | case2 first rest induction =>
      exact .cons_cons first (induction.trans (List.dropWhile_sublist _))

theorem lt_of_mem_dropWhile {candidates : List Candidate} {address : UInt64}
    (ascending : candidates.Pairwise fun first second =>
      first.exported.address ≤ second.exported.address)
    (least : ∀ candidate ∈ candidates, address ≤ candidate.exported.address)
    {candidate : Candidate}
    (member : candidate ∈ candidates.dropWhile (·.exported.address == address)) :
    address < candidate.exported.address := by
  induction candidates with
  | nil => contradiction
  | cons first rest induction =>
      obtain ⟨atLeastFirst, others⟩ := List.pairwise_cons.mp ascending
      obtain ⟨notBelow, leastOfRest⟩ := List.forall_mem_cons.mp least
      by_cases same : first.exported.address = address
      · rw [List.dropWhile_cons_of_pos (by simpa using same)] at member
        exact induction others leastOfRest member
      · have behind : address < first.exported.address :=
          UInt64.lt_of_le_of_ne notBelow (Ne.symm same)
        rw [List.dropWhile_cons_of_neg (by simpa using same)] at member
        rcases List.mem_cons.mp member with rfl | later
        · exact behind
        · exact UInt64.lt_of_lt_of_le behind (atLeastFirst candidate later)

/-- Candidates of one address stand together, so all of them but the first are passed over. -/
theorem pairwise_keepFirst {candidates : List Candidate}
    (ascending : candidates.Pairwise fun first second =>
      first.exported.address ≤ second.exported.address) :
    (keepFirst candidates).Pairwise fun first second =>
      first.exported.address < second.exported.address := by
  fun_induction keepFirst candidates with
  | case1 => exact .nil
  | case2 first rest induction =>
      obtain ⟨least, others⟩ := List.pairwise_cons.mp ascending
      refine List.pairwise_cons.mpr ⟨?_, induction (others.sublist (List.dropWhile_sublist _))⟩
      intro kept member
      apply lt_of_mem_dropWhile others least
      exact (keepFirst_sublist _).subset member

theorem exists_distinct_map (contents : Contents) (table : SymbolTable) :
    ∃ symbols, table.map contents = .ofList symbols ∧ (symbols.map (·.address)).Nodup := by
  have ascending := (List.pairwise_mergeSort Candidate.le_trans Candidate.le_total
    (table.candidates contents)).imp Candidate.address_le
  refine ⟨_, rfl, ?_⟩
  rw [List.map_map]
  refine List.pairwise_map.mpr ((pairwise_keepFirst ascending).imp ?_)
  exact UInt64.ne_of_lt

end Elf.SymbolTable

end Symbolization
