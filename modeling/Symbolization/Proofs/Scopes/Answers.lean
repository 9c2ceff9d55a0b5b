import Symbolization.Proofs.Dwarf.Entries
import Symbolization.Proofs.Scopes.FlatWalk
import Symbolization.Proofs.Scopes.Worklist
import Symbolization.Session.ImageSession

/-!
# Scopes that a session answers

Both kinds of sessions answer with the innermost scope of a unit, one from the flat stream of its
entries and one from a table of them.
-/

namespace Symbolization

/-- How an entry stands to an on-disk address, by the answers of a session. -/
def DebugView.coverage (view : DebugView) (address : UInt64) (entry : EntryHandle) : Coverage :=
  if (view.tag entry).any Tag.isScope then
    if (view.ranges entry).any (·.contains address) then .covered else .missed
  else .neutral

namespace ImageSession

/-- The entries of a unit are read as the flat stream of the tree. -/
def HasTree (session : ImageSession) (handle : UnitHandle) (tree : EntryTree EntryHandle) : Prop :=
  ∃ image unit entries, session.unit? handle = some (image, unit) ∧
    unit.entries.all = EntryTree.stream entries ∧
    tree = entries.map fun entry => ⟨handle, entry.offset⟩

/-- The entries of a unit form a tree as soon as all but the first lie below the top. -/
theorem exists_hasTree {session : ImageSession} {handle : UnitHandle} {image : Image}
    {unit : Dwarf.CompilationUnit} (found : session.unit? handle = some (image, unit))
    {root : Dwarf.Entry} {nodes : List (Int × Dwarf.Entry)}
    (all : unit.entries.all = (0, root) :: nodes)
    (below : ∀ before node after, nodes = before ++ node :: after →
      0 < EntryTree.descent before + node.1) :
    ∃ tree, session.HasTree handle tree := by
  have steps : ∀ node ∈ nodes, node.1 ≤ 1 := by
    intro node member
    have listed : node ∈ unit.entries.all := by
      rw [all]
      exact List.mem_cons_of_mem _ member
    exact Dwarf.Entries.change_le_one_of_mem_all listed
  obtain ⟨tree, stream⟩ := EntryTree.exists_stream_eq root steps below
  exact ⟨_, image, unit, tree, found, all.trans stream.symm, rfl⟩

/-- The tree of a unit is the one with the flat stream of the unit. -/
theorem hasTree_iff {session : ImageSession} {handle : UnitHandle} {image : Image}
    {unit : Dwarf.CompilationUnit} (found : session.unit? handle = some (image, unit))
    {tree : EntryTree EntryHandle} : session.HasTree handle tree ↔
      unit.entries.all.map (Prod.map id fun entry => ⟨handle, entry.offset⟩) = tree.stream := by
  constructor
  · rintro ⟨_, _, entries, foundToo, stream, rfl⟩
    cases found.symm.trans foundToo
    rw [EntryTree.stream_map, stream]
  · intro stream
    obtain ⟨top, shape⟩ : ∃ top, tree.stream = (0, top) :: tree.stream.tail := by
      cases tree
      exact ⟨_, rfl⟩
    obtain ⟨⟨_, root⟩, nodes, all, first, rest⟩ := List.map_eq_cons_iff.mp (stream.trans shape)
    obtain ⟨rfl, -⟩ := Prod.mk.inj first
    have below : ∀ before node after, nodes = before ++ node :: after →
        0 < EntryTree.descent before + node.1 := by
      rintro before node after rfl
      rw [← rest, List.map_append, List.map_cons] at shape
      have positive := EntryTree.below_of_stream shape _ _ _ rfl
      rwa [EntryTree.descent_map] at positive
    obtain ⟨other, _, _, entries, foundToo, streamToo, rfl⟩ := exists_hasTree found all below
    cases found.symm.trans foundToo
    rw [streamToo, ← EntryTree.stream_map] at stream
    exact ⟨image, unit, entries, found, streamToo, (EntryTree.stream_injective stream).symm⟩

theorem coverage_of_mem_all {session : ImageSession} {handle : UnitHandle} {image : Image}
    {unit : Dwarf.CompilationUnit} (found : session.unit? handle = some (image, unit))
    {node : Int × Dwarf.Entry} (member : node ∈ unit.entries.all) (address : UInt64) :
    session.view.coverage address ⟨handle, node.2.offset⟩ = unit.coverage address node.2 := by
  have got := Dwarf.Entries.get?_of_mem_all member
  simp [DebugView.coverage, view, entryAt?, found, got, Dwarf.CompilationUnit.coverage]

theorem isInnermost_scopes {session : ImageSession} {handle : UnitHandle}
    {tree : EntryTree EntryHandle} (hasTree : session.HasTree handle tree) (address : UInt64) :
    tree.IsInnermost (session.view.coverage address) (session.view.scopes handle address) := by
  obtain ⟨image, unit, entries, found, stream, rfl⟩ := hasTree
  have scopes : session.view.scopes handle address =
      (ScopeWalk.innermost (unit.coverage address) entries.stream).map
        fun entry => ⟨handle, entry.offset⟩ := by
    simp [view, found, Dwarf.CompilationUnit.scopes, stream]
  rw [scopes]
  refine EntryTree.IsInnermost.map ((ScopeWalk.isInnermost_innermost _ entries).congr ?_)
  intro node member
  rw [← stream] at member
  exact (coverage_of_mem_all found member address).symm

end ImageSession

namespace InMemorySession

/-- The entries of a unit stand in its table as the tree. -/
def HasTree (session : InMemorySession) (handle : UnitHandle) (tree : EntryTree EntryHandle) :
    Prop :=
  ∃ unit, session.unit? handle = some unit ∧
    tree = (unit.tree 0).map fun offset => ⟨handle, offset⟩

theorem coverage_eq {session : InMemorySession} {handle : UnitHandle} {unit : MemoryUnit}
    (found : session.unit? handle = some unit) (address : UInt64) (offset : Nat) :
    session.view.coverage address ⟨handle, offset⟩ = unit.coverage address offset := by
  simp [DebugView.coverage, view, found, MemoryUnit.coverage, MemoryUnit.isScope,
    MemoryUnit.covers]

theorem isInnermost_scopes {session : InMemorySession} {handle : UnitHandle}
    {tree : EntryTree EntryHandle} (hasTree : session.HasTree handle tree) (address : UInt64) :
    tree.IsInnermost (session.view.coverage address) (session.view.scopes handle address) := by
  obtain ⟨unit, found, rfl⟩ := hasTree
  have scopes : session.view.scopes handle address =
      (unit.scopes address).map fun offset => ⟨handle, offset⟩ := by
    simp [view, found]
  rw [scopes]
  refine EntryTree.IsInnermost.map ((unit.isInnermost_scopes address).congr ?_)
  intro node member
  exact (coverage_eq found address node.2).symm

end InMemorySession

/-- Whatever the tree, its kinds of entries and their ranges: the pass over the flat stream of the
tree, and with it a session over images, and the search of a table of its entries, and with it an
in-memory session, both lead from the innermost scope up to the root.  The tree of a table leaves
out none of its entries. -/
theorem isInnermost_scopes_of_hasTree :
    (∀ {α : Type} (coverage : α → Coverage) (tree : EntryTree α),
      tree.IsInnermost coverage (ScopeWalk.innermost coverage tree.stream)) ∧
    (∀ (unit : MemoryUnit) (address : UInt64),
      (unit.tree 0).IsInnermost (unit.coverage address) (unit.scopes address)) ∧
    (∀ (unit : MemoryUnit) (offset : Nat), offset < unit.limit →
      unit.place offset ∈ (unit.tree 0).places) ∧
    (∀ (session : ImageSession) (handle : UnitHandle) (tree : EntryTree EntryHandle),
      session.HasTree handle tree → ∀ address,
        tree.IsInnermost (session.view.coverage address) (session.view.scopes handle address)) ∧
    ∀ (session : InMemorySession) (handle : UnitHandle) (tree : EntryTree EntryHandle),
      session.HasTree handle tree → ∀ address,
        tree.IsInnermost (session.view.coverage address) (session.view.scopes handle address) := by
  refine ⟨ScopeWalk.isInnermost_innermost, MemoryUnit.isInnermost_scopes,
    fun unit _ => unit.place_mem_tree, ?_, ?_⟩
  · intro session handle tree hasTree address
    exact ImageSession.isInnermost_scopes hasTree address
  · intro session handle tree hasTree address
    exact InMemorySession.isInnermost_scopes hasTree address

end Symbolization
