import Symbolization.Proofs.Scopes.Innermost

/-!
# The pass over the flat stream

Between two entries of the stream the pass keeps a path with entries that it has left already, and
a depth below which it passes over everything.  What lies around the next entry is the part of the
path above the level of that entry.
-/

namespace Symbolization

namespace ScopeWalk

variable {α : Type}

/-- The pass with one more entry, given by its place. -/
def visit (coverage : α → Coverage) (walk : ScopeWalk α) (place : EntryPlace α) : ScopeWalk α :=
  walk.step coverage (place.depth - walk.depth, place.entry)

theorem depth_step (coverage : α → Coverage) (walk : ScopeWalk α) (node : Int × α) :
    (walk.step coverage node).depth = walk.depth + node.1 := by
  simp only [step]
  split
  · rfl
  · split
    · rfl
    · rfl
    · split <;> rfl

theorem depth_visit (coverage : α → Coverage) (walk : ScopeWalk α) (place : EntryPlace α) :
    (walk.visit coverage place).depth = place.depth := by
  rw [visit, depth_step]
  omega

/-- The depths that the pass rebuilds from the changes of level are those of the places. -/
theorem foldl_step_deltas (coverage : α → Coverage) (walk : ScopeWalk α)
    (places : List (EntryPlace α)) :
    (EntryTree.deltas walk.depth places).foldl (step coverage) walk =
      places.foldl (visit coverage) walk := by
  induction places generalizing walk with
  | nil => rfl
  | cons place places induction =>
      rw [EntryTree.deltas, List.foldl_cons, List.foldl_cons, ← induction, depth_visit]
      rfl

/-- The entries with their depths, as the path of a pass holds them. -/
def located : List α → List (Int × α)
  | [] => []
  | entry :: around => (around.length, entry) :: located around

theorem map_located (around : List α) : (located around).map (·.2) = around := by
  induction around with
  | nil => rfl
  | cons entry around induction => rw [located, List.map_cons, induction]

theorem dropWhile_located {around : List α} {level : Int} (below : around.length ≤ level) :
    (located around).dropWhile (level ≤ ·.1) = located around := by
  cases around with
  | nil => rfl
  | cons entry around =>
      have above : ¬level ≤ (around.length : Int) := by
        simp only [List.length_cons] at below
        omega
      rw [located, List.dropWhile_cons_of_neg (by simpa using above)]

theorem dropWhile_dropWhile_level {outer inner : Int} (below : outer ≤ inner)
    (path : List (Int × α)) :
    (path.dropWhile (inner ≤ ·.1)).dropWhile (outer ≤ ·.1) = path.dropWhile (outer ≤ ·.1) := by
  induction path with
  | nil => rfl
  | cons node path induction =>
      by_cases deep : inner ≤ node.1
      · have deeper : outer ≤ node.1 := Int.le_trans below deep
        rw [List.dropWhile_cons_of_pos (by simpa using deep), induction,
          List.dropWhile_cons_of_pos (by simpa using deeper)]
      · rw [List.dropWhile_cons_of_neg (by simpa using deep)]

/-- The next entry may be one that lies directly in `around`, and nothing passes over it. -/
structure Ready (walk : ScopeWalk α) (around : List α) : Prop where
  path : walk.path.dropWhile ((around.length : Int) ≤ ·.1) = located around
  outside : ∀ limit ∈ walk.passing, (around.length : Int) ≤ limit
  chainDepth : walk.chainDepth = walk.chain.length - 1

theorem ready_start : (start : ScopeWalk α).Ready [] := ⟨rfl, by simp [start], by simp [start]⟩

section

variable {coverage : α → Coverage} {walk : ScopeWalk α} {entry : α} {around : List α}

theorem Ready.leave (ready : walk.Ready (entry :: around)) : walk.Ready around := by
  have further : (around.length : Int) ≤ (entry :: around).length := by
    simp only [List.length_cons]
    omega
  refine ⟨?_, ?_, ready.chainDepth⟩
  · rw [← dropWhile_dropWhile_level further, ready.path, located,
      List.dropWhile_cons_of_pos (by simp), dropWhile_located (Int.le_refl _)]
  · intro limit passing
    exact Int.le_trans further (ready.outside limit passing)

theorem visit_of_ready (ready : walk.Ready around) :
    let chain := if coverage entry = .covered then EntryTree.longer walk.chain ⟨entry, around⟩
      else walk.chain
    walk.visit coverage ⟨entry, around⟩ =
      { depth := around.length
        path := located (entry :: around)
        chain
        chainDepth := chain.length - 1
        passing := if coverage entry = .missed then some (around.length : Int) else none } := by
  have depth : walk.depth + ((around.length : Int) - walk.depth) = around.length := by omega
  have outside : walk.passing.any (· < (around.length : Int)) = false := by
    cases passing : walk.passing with
    | none => rfl
    | some limit =>
        have bound := ready.outside limit passing
        simpa using bound
  have path := ready.path
  have deepest := ready.chainDepth
  simp only [visit, step, EntryPlace.depth, depth, outside, Bool.false_eq_true, if_false]
  rw [path, ← located]
  cases covers : coverage entry with
  | neutral => simp [deepest]
  | missed => simp [deepest]
  | covered =>
      by_cases deeper : walk.chainDepth < around.length
      · have longer : EntryTree.longer walk.chain ⟨entry, around⟩ = entry :: around := by
          rw [EntryTree.longer, if_pos]
          · rfl
          · simp only [EntryPlace.chain, List.length_cons]
            omega
        simp only [if_pos deeper]
        simp [longer, map_located]
      · have same : EntryTree.longer walk.chain ⟨entry, around⟩ = walk.chain := by
          rw [EntryTree.longer, if_neg]
          simp only [EntryPlace.chain, List.length_cons]
          omega
        simp only [if_neg deeper]
        simp [same, deepest]

theorem Ready.enter (ready : walk.Ready around) (sees : coverage entry ≠ .missed) :
    (walk.visit coverage ⟨entry, around⟩).Ready (entry :: around) := by
  rw [visit_of_ready ready]
  exact ⟨dropWhile_located (Int.le_refl _), by simp [sees], rfl⟩

/-- Behind an entry that misses comes its next sibling, once its children are passed over. -/
theorem Ready.skip (ready : walk.Ready around) (misses : coverage entry = .missed) :
    (walk.visit coverage ⟨entry, around⟩).Ready around := by
  rw [visit_of_ready ready]
  refine ⟨?_, by simp [misses], rfl⟩
  rw [located, List.dropWhile_cons_of_pos (by simp), dropWhile_located (Int.le_refl _)]

theorem foldl_visit_of_passing {limit : Int} (passing : walk.passing = some limit)
    {places : List (EntryPlace α)} (below : ∀ place ∈ places, limit < place.depth) :
    ∃ depth, places.foldl (visit coverage) walk = { walk with depth } := by
  induction places generalizing walk with
  | nil => exact ⟨walk.depth, rfl⟩
  | cons place places induction =>
      have depth : walk.depth + ((place.depth : Int) - walk.depth) = place.depth := by omega
      have first : walk.visit coverage place = { walk with depth := place.depth } := by
        have inside : limit < place.depth := below place List.mem_cons_self
        simp only [visit, step, depth, passing, Option.any_some, inside, decide_true, if_true]
      rw [List.foldl_cons, first]
      exact induction passing fun other member => below other (List.mem_cons_of_mem place member)

end

/-! The pass over a tree. -/

variable {coverage : α → Coverage}

/-- What a pass has done behind entries that lie directly or further down in `around`. -/
def Passed (coverage : α → Coverage) (walk : ScopeWalk α) (around : List α)
    (places : List (EntryPlace α)) : Prop :=
  (places.foldl (visit coverage) walk).Ready around ∧
    (places.foldl (visit coverage) walk).chain =
      (places.filter (·.isVisibleScope coverage)).foldl EntryTree.longer walk.chain

variable {walk : ScopeWalk α} {entry : α} {around : List α}

theorem Passed.append {first second : List (EntryPlace α)}
    (passed : Passed coverage walk around first)
    (next : (first.foldl (visit coverage) walk).Ready around →
      Passed coverage (first.foldl (visit coverage) walk) around second) :
    Passed coverage walk around (first ++ second) := by
  have after := next passed.1
  rw [Passed, List.foldl_append, List.filter_append, List.foldl_append, ← passed.2]
  exact after

/-- An entry that misses is passed together with all that lies below it. -/
theorem Passed.of_missed (ready : walk.Ready around) (misses : coverage entry = .missed)
    (children : List (EntryTree α)) :
    Passed coverage walk around
      (⟨entry, around⟩ :: EntryTree.placesInAll (entry :: around) children) := by
  have passing : (walk.visit coverage ⟨entry, around⟩).passing = some (around.length : Int) := by
    rw [visit_of_ready ready, if_pos misses]
  have below : ∀ place ∈ EntryTree.placesInAll (entry :: around) children,
      (around.length : Int) < place.depth := by
    intro place member
    have longer := (EntryTree.around_suffix_of_mem_placesInAll member).length_le
    simp only [EntryPlace.depth, List.length_cons] at longer ⊢
    omega
  obtain ⟨depth, skipped⟩ := foldl_visit_of_passing passing below
  have hidden : ¬(EntryPlace.mk entry around).isVisibleScope coverage := by
    simp [EntryPlace.isVisibleScope_iff, misses]
  have skip := ready.skip misses
  rw [Passed, List.foldl_cons, skipped, List.filter_cons, if_neg hidden,
    EntryTree.filter_isVisibleScope_placesInAll misses]
  refine ⟨⟨skip.path, skip.outside, skip.chainDepth⟩, ?_⟩
  simp [visit_of_ready ready, misses]

/-- An entry that does not miss is passed once its children are. -/
theorem Passed.of_seen (ready : walk.Ready around)
    (sees : ∀ other ∈ around, coverage other ≠ .missed) {below : List (EntryPlace α)}
    (passed : Passed coverage (walk.visit coverage ⟨entry, around⟩) (entry :: around) below) :
    Passed coverage walk around (⟨entry, around⟩ :: below) := by
  rw [Passed, List.foldl_cons, List.filter_cons]
  refine ⟨passed.1.leave, ?_⟩
  rw [passed.2, visit_of_ready ready]
  by_cases covers : coverage entry = .covered
  · have visible : (EntryPlace.mk entry around).isVisibleScope coverage :=
      EntryPlace.isVisibleScope_iff.mpr ⟨covers, sees⟩
    rw [if_pos visible, List.foldl_cons, if_pos covers]
  · have hidden : ¬(EntryPlace.mk entry around).isVisibleScope coverage := by
      simp [EntryPlace.isVisibleScope_iff, covers]
    rw [if_neg hidden, if_neg covers]

mutual

theorem passed_placesIn {around : List α} (sees : ∀ entry ∈ around, coverage entry ≠ .missed) :
    ∀ {walk : ScopeWalk α} (tree : EntryTree α), walk.Ready around →
      Passed coverage walk around (tree.placesIn around)
  | walk, .node entry children, ready => by
      rw [EntryTree.placesIn]
      by_cases misses : coverage entry = .missed
      · exact .of_missed ready misses children
      · have inside : ∀ other ∈ entry :: around, coverage other ≠ .missed := by
          intro other member
          rcases List.mem_cons.mp member with rfl | further
          · exact misses
          · exact sees other further
        apply Passed.of_seen ready sees
        exact passed_placesInAll inside children (ready.enter misses)

theorem passed_placesInAll {around : List α} (sees : ∀ entry ∈ around, coverage entry ≠ .missed) :
    ∀ {walk : ScopeWalk α} (trees : List (EntryTree α)), walk.Ready around →
      Passed coverage walk around (EntryTree.placesInAll around trees)
  | walk, [], ready => ⟨ready, rfl⟩
  | walk, tree :: trees, ready => by
      rw [EntryTree.placesInAll]
      apply (passed_placesIn sees tree ready).append
      exact passed_placesInAll sees trees

end

/-- The pass over the stream of a tree finds the innermost scope of the tree. -/
theorem isInnermost_innermost (coverage : α → Coverage) (tree : EntryTree α) :
    tree.IsInnermost coverage (innermost coverage tree.stream) := by
  have passed : Passed coverage start [] tree.places :=
    passed_placesIn (by simp) tree ready_start
  have visited : innermost coverage tree.stream =
      (tree.places.foldl (visit coverage) start).chain :=
    congrArg chain (foldl_step_deltas coverage start tree.places)
  rw [visited, passed.2]
  exact tree.isInnermost_foldl coverage

end ScopeWalk

end Symbolization
