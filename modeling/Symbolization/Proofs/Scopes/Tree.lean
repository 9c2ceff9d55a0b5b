import Symbolization.Dwarf.Scopes

/-!
# Trees of entries

The entries of a unit form a tree, which is gone through in pre-order.  The place of an entry in it
is told by the entries around it.
-/

namespace Symbolization

/-- A tree of entries. -/
inductive EntryTree (α : Type) where
  | node (entry : α) (children : List (EntryTree α))

/-- An entry of a tree together with the entries around it, from the inside out. -/
structure EntryPlace (α : Type) where
  entry : α
  around : List α

namespace EntryPlace

variable {α β : Type}

/-- The entry, its parent and so on up to the root. -/
def chain (place : EntryPlace α) : List α := place.entry :: place.around

def depth (place : EntryPlace α) : Nat := place.around.length

def map (transform : α → β) (place : EntryPlace α) : EntryPlace β :=
  ⟨transform place.entry, place.around.map transform⟩

/-- The places along a chain, from the inside out. -/
def along : List α → List (EntryPlace α)
  | [] => []
  | entry :: around => ⟨entry, around⟩ :: along around

theorem map_along (chain : List α) : (along chain).map (·.entry) = chain := by
  induction chain with
  | nil => rfl
  | cons entry around induction => rw [along, List.map_cons, induction]

theorem mem_along {chain : List α} {place : EntryPlace α} :
    place ∈ along chain ↔ place.chain <:+ chain := by
  induction chain with
  | nil => simp [along, EntryPlace.chain]
  | cons entry around induction =>
      rw [along, List.mem_cons, induction, List.suffix_cons_iff]
      apply or_congr_left
      constructor
      · rintro rfl
        rfl
      · intro same
        obtain ⟨head, tail⟩ := place
        cases same
        rfl

theorem eq_of_suffix {outer inner : EntryPlace α} (suffix : outer.chain <:+ inner.chain)
    (inside : inner.around <:+ outer.around) : outer = inner := by
  have same := suffix.eq_of_length_le (Nat.succ_le_succ inside.length_le)
  obtain ⟨head, tail⟩ := outer
  obtain ⟨entry, around⟩ := inner
  cases same
  rfl

end EntryPlace

namespace EntryTree

variable {α β : Type}

mutual

/-- The entries of a tree in pre-order, where `around` is what the tree itself lies in. -/
def placesIn (around : List α) : EntryTree α → List (EntryPlace α)
  | .node entry children => ⟨entry, around⟩ :: placesInAll (entry :: around) children

/-- The entries of the trees, one tree behind the other. -/
def placesInAll (around : List α) : List (EntryTree α) → List (EntryPlace α)
  | [] => []
  | tree :: trees => tree.placesIn around ++ placesInAll around trees

end

def places (tree : EntryTree α) : List (EntryPlace α) := tree.placesIn []

theorem placesInAll_eq_flatMap (around : List α) (trees : List (EntryTree α)) :
    placesInAll around trees = trees.flatMap (placesIn around) := by
  induction trees with
  | nil => rw [placesInAll, List.flatMap_nil]
  | cons tree trees induction => rw [placesInAll, induction, List.flatMap_cons]

mutual

theorem around_suffix_of_mem_placesIn {around : List α} :
    ∀ {tree : EntryTree α} {place : EntryPlace α},
      place ∈ tree.placesIn around → around <:+ place.around
  | .node entry children, place, member => by
      rw [placesIn] at member
      rcases List.mem_cons.mp member with rfl | below
      · exact List.suffix_refl around
      · exact (List.suffix_cons entry around).trans (around_suffix_of_mem_placesInAll below)

theorem around_suffix_of_mem_placesInAll {around : List α} :
    ∀ {trees : List (EntryTree α)} {place : EntryPlace α},
      place ∈ placesInAll around trees → around <:+ place.around
  | [], place, member => by
      rw [placesInAll] at member
      contradiction
  | tree :: trees, place, member => by
      rw [placesInAll] at member
      rcases List.mem_append.mp member with here | behind
      · exact around_suffix_of_mem_placesIn here
      · exact around_suffix_of_mem_placesInAll behind

end

mutual

def map (transform : α → β) : EntryTree α → EntryTree β
  | .node entry children => .node (transform entry) (mapAll transform children)

def mapAll (transform : α → β) : List (EntryTree α) → List (EntryTree β)
  | [] => []
  | tree :: trees => tree.map transform :: mapAll transform trees

end

mutual

theorem placesIn_map (transform : α → β) (around : List α) : ∀ tree : EntryTree α,
    (tree.map transform).placesIn (around.map transform) =
      (tree.placesIn around).map (·.map transform)
  | .node entry children => by
      rw [map, placesIn, placesIn, List.map_cons, ← List.map_cons, placesInAll_mapAll]
      rfl

theorem placesInAll_mapAll (transform : α → β) (around : List α) :
    ∀ trees : List (EntryTree α),
      placesInAll (around.map transform) (mapAll transform trees) =
        (placesInAll around trees).map (·.map transform)
  | [] => rfl
  | tree :: trees => by
      rw [mapAll, placesInAll, placesInAll, placesIn_map, placesInAll_mapAll, List.map_append]

end

theorem places_map (transform : α → β) (tree : EntryTree α) :
    (tree.map transform).places = tree.places.map (·.map transform) :=
  placesIn_map transform [] tree

/-! The places around a place. -/

mutual

theorem mem_placesIn_of_suffix {around : List α} {outer inner : EntryPlace α}
    (suffix : outer.chain <:+ inner.chain) (inside : around <:+ outer.around) :
    ∀ {tree : EntryTree α}, inner ∈ tree.placesIn around → outer ∈ tree.placesIn around
  | .node entry children, member => by
      rw [placesIn] at member ⊢
      rcases List.mem_cons.mp member with rfl | below
      · rw [EntryPlace.eq_of_suffix suffix inside]
        exact List.mem_cons_self
      · have deep : entry :: around <:+ inner.chain :=
          (around_suffix_of_mem_placesInAll below).trans (List.suffix_cons _ _)
        by_cases shallow : outer.chain.length ≤ (entry :: around).length
        · have here : outer.chain <:+ entry :: around :=
            List.suffix_of_suffix_length_le suffix deep shallow
          have same : outer = ⟨entry, around⟩ := EntryPlace.eq_of_suffix here inside
          rw [same]
          exact List.mem_cons_self
        · have further : entry :: around <:+ outer.around :=
            List.suffix_of_suffix_length_le deep ((List.suffix_cons _ _).trans suffix)
              (Nat.le_of_lt_succ (Nat.lt_of_not_le shallow))
          exact List.mem_cons_of_mem _ (mem_placesInAll_of_suffix suffix further below)

theorem mem_placesInAll_of_suffix {around : List α} {outer inner : EntryPlace α}
    (suffix : outer.chain <:+ inner.chain) (inside : around <:+ outer.around) :
    ∀ {trees : List (EntryTree α)},
      inner ∈ placesInAll around trees → outer ∈ placesInAll around trees
  | [], member => by
      rw [placesInAll] at member
      contradiction
  | tree :: trees, member => by
      rw [placesInAll] at member ⊢
      rcases List.mem_append.mp member with here | behind
      · exact List.mem_append_left _ (mem_placesIn_of_suffix suffix inside here)
      · exact List.mem_append_right _ (mem_placesInAll_of_suffix suffix inside behind)

end

theorem mem_places_of_suffix {tree : EntryTree α} {outer inner : EntryPlace α}
    (member : inner ∈ tree.places) (suffix : outer.chain <:+ inner.chain) :
    outer ∈ tree.places :=
  mem_placesIn_of_suffix suffix (List.nil_suffix) member

/-- The changes of level along the places, when the entry before them has depth `previous`. -/
def deltas (previous : Int) : List (EntryPlace α) → List (Int × α)
  | [] => []
  | place :: places => (place.depth - previous, place.entry) :: deltas place.depth places

/-- The tree as a flat stream: each entry with how many levels it lies below the one before it. -/
def stream (tree : EntryTree α) : List (Int × α) := deltas 0 tree.places

theorem map_deltas (previous : Int) (places : List (EntryPlace α)) :
    (deltas previous places).map (·.2) = places.map (·.entry) := by
  induction places generalizing previous with
  | nil => rfl
  | cons place places induction => rw [deltas, List.map_cons, List.map_cons, induction]

theorem deltas_map (transform : α → β) (previous : Int) (places : List (EntryPlace α)) :
    deltas previous (places.map (·.map transform)) =
      (deltas previous places).map (Prod.map id transform) := by
  induction places generalizing previous with
  | nil => rfl
  | cons place places induction =>
      have depth : (place.map transform).depth = place.depth := List.length_map transform
      rw [List.map_cons, deltas, deltas, List.map_cons, depth, induction]
      rfl

theorem stream_map (transform : α → β) (tree : EntryTree α) :
    (tree.map transform).stream = tree.stream.map (Prod.map id transform) := by
  rw [stream, places_map, deltas_map, stream]

/-- Every entry around a place has a place of its own in the tree, and so a node of the stream. -/
theorem exists_mem_stream {tree : EntryTree α} {place : EntryPlace α} {entry : α}
    (member : place ∈ tree.places) (inside : entry ∈ place.chain) :
    ∃ node ∈ tree.stream, node.2 = entry := by
  rw [← EntryPlace.map_along place.chain] at inside
  obtain ⟨outer, along, rfl⟩ := List.mem_map.mp inside
  have placed := mem_places_of_suffix member (EntryPlace.mem_along.mp along)
  rw [← List.mem_map, stream, map_deltas]
  exact List.mem_map_of_mem placed

/-! Which streams are those of a tree. -/

/-- How many levels the last of the nodes lies below what comes before them. -/
def descent : List (Int × α) → Int
  | [] => 0
  | first :: nodes => first.1 + descent nodes

theorem descent_map (transform : α → β) (nodes : List (Int × α)) :
    descent (nodes.map (Prod.map id transform)) = descent nodes := by
  induction nodes with
  | nil => rfl
  | cons first nodes induction =>
      rw [List.map_cons, descent, descent, induction]
      rfl

/-- The depth of the last place, or `previous` if there is none. -/
def lastDepth (previous : Int) : List (EntryPlace α) → Int
  | [] => previous
  | place :: places => lastDepth place.depth places

theorem lastDepth_eq_add_descent (previous : Int) (places : List (EntryPlace α)) :
    lastDepth previous places = previous + descent (deltas previous places) := by
  induction places generalizing previous with
  | nil => exact (Int.add_zero previous).symm
  | cons place places induction =>
      rw [lastDepth, induction, deltas, descent]
      omega

theorem lastDepth_append (previous : Int) (first second : List (EntryPlace α)) :
    lastDepth previous (first ++ second) = lastDepth (lastDepth previous first) second := by
  induction first generalizing previous with
  | nil => rfl
  | cons place first induction => exact induction place.depth

theorem deltas_append (previous : Int) (first second : List (EntryPlace α)) :
    deltas previous (first ++ second) =
      deltas previous first ++ deltas (lastDepth previous first) second := by
  induction first generalizing previous with
  | nil => rfl
  | cons place first induction =>
      rw [List.cons_append, deltas, deltas, induction, lastDepth, List.cons_append]

theorem exists_depth_eq {previous : Int} {places : List (EntryPlace α)}
    {before after : List (Int × α)} {node : Int × α}
    (split : deltas previous places = before ++ node :: after) :
    ∃ place ∈ places, (place.depth : Int) = previous + descent before + node.1 := by
  induction before generalizing previous places with
  | nil =>
      cases places with
      | nil => contradiction
      | cons place places =>
          obtain ⟨rfl, -⟩ := List.cons.inj split
          refine ⟨place, List.mem_cons_self, ?_⟩
          simp only [descent]
          omega
  | cons first before induction =>
      cases places with
      | nil => contradiction
      | cons place places =>
          obtain ⟨rfl, behind⟩ := List.cons.inj split
          obtain ⟨deeper, member, depth⟩ := induction behind
          refine ⟨deeper, List.mem_cons_of_mem _ member, ?_⟩
          simp only [descent]
          omega

theorem below_of_stream {tree : EntryTree α} {root : Int × α} {nodes : List (Int × α)}
    (stream : tree.stream = root :: nodes) :
    ∀ before node after, nodes = before ++ node :: after → 0 < descent before + node.1 := by
  obtain ⟨entry, children⟩ := tree
  obtain ⟨-, below⟩ := List.cons.inj stream
  intro before node after split
  rw [split] at below
  obtain ⟨place, member, depth⟩ := exists_depth_eq below
  have inside := (around_suffix_of_mem_placesInAll member).length_le
  simp only [EntryPlace.depth, List.length_singleton, List.length_nil] at depth inside
  omega

/-- As many trees as possible are read off nodes that start inside `around`. -/
theorem exists_trees {nodes : List (Int × α)} (steps : ∀ node ∈ nodes, node.1 ≤ 1)
    {around : List α} {previous : Int}
    (inside : ∀ node ∈ nodes.head?, previous + node.1 ≤ around.length) :
    ∃ trees rest, nodes = deltas previous (placesInAll around trees) ++ rest ∧
      ∀ node ∈ rest.head?,
        lastDepth previous (placesInAll around trees) + node.1 < around.length := by
  match nodes with
  | [] => exact ⟨[], [], rfl, by simp⟩
  | (delta, entry) :: nodes =>
      by_cases outside : previous + delta < around.length
      · exact ⟨[], (delta, entry) :: nodes, rfl, by simpa [placesInAll, lastDepth] using outside⟩
      · have level : (around.length : Int) - previous = delta := by
          have bound := inside (delta, entry) rfl
          omega
        have further : ∀ other ∈ nodes, other.1 ≤ 1 := fun other member =>
          steps other (List.mem_cons_of_mem _ member)
        have below : ∀ other ∈ nodes.head?,
            (around.length : Int) + other.1 ≤ (entry :: around).length := by
          intro other head
          have step := further other (List.mem_of_mem_head? head)
          simp only [List.length_cons]
          omega
        obtain ⟨children, behind, split, leaves⟩ := exists_trees further below
        have shorter : behind.length ≤ nodes.length := by
          rw [split, List.length_append]
          exact Nat.le_add_left _ _
        have next : ∀ other ∈ behind.head?, lastDepth around.length
            (placesInAll (entry :: around) children) + other.1 ≤ around.length := by
          intro other head
          have bound := leaves other head
          simp only [List.length_cons] at bound
          omega
        have kept : ∀ other ∈ behind, other.1 ≤ 1 := by
          intro other member
          rw [split] at further
          exact further other (List.mem_append_right _ member)
        obtain ⟨trees, rest, resplit, ends⟩ := exists_trees kept next
        refine ⟨.node entry children :: trees, rest, ?_, ?_⟩
        · rw [placesInAll, placesIn, List.cons_append, deltas, deltas_append, EntryPlace.depth,
            level, List.cons_append, List.append_assoc, ← resplit, ← split]
        · rw [placesInAll, placesIn, List.cons_append, lastDepth, EntryPlace.depth,
            lastDepth_append]
          exact ends
  termination_by nodes.length
  decreasing_by
    · simp
    · simp only [List.length_cons]
      omega

/-- Nodes are the stream of a tree if each lies at most one level below the one before it and only
the first one lies at the top. -/
theorem exists_stream_eq (root : α) {nodes : List (Int × α)}
    (steps : ∀ node ∈ nodes, node.1 ≤ 1)
    (below : ∀ before node after, nodes = before ++ node :: after →
      0 < descent before + node.1) :
    ∃ tree : EntryTree α, tree.stream = (0, root) :: nodes := by
  have first : ∀ node ∈ nodes.head?, (0 : Int) + node.1 ≤ [root].length := by
    intro node head
    have step := steps node (List.mem_of_mem_head? head)
    simp only [List.length_singleton]
    omega
  obtain ⟨trees, rest, split, ends⟩ := exists_trees steps first
  refine ⟨.node root trees, ?_⟩
  cases rest with
  | nil =>
      rw [List.append_nil] at split
      rw [stream, places, placesIn, deltas, split]
      rfl
  | cons node rest =>
      have positive := below _ node rest split
      have ending := ends node rfl
      rw [lastDepth_eq_add_descent] at ending
      simp only [List.length_singleton] at ending
      omega

theorem deltas_placesInAll_cons (around : List α) (previous : Int) (entry : α)
    (children trees : List (EntryTree α)) :
    deltas previous (placesInAll around (.node entry children :: trees)) =
      (around.length - previous, entry) ::
        (deltas around.length (placesInAll (entry :: around) children) ++
          deltas (lastDepth around.length (placesInAll (entry :: around) children))
            (placesInAll around trees)) := by
  rw [placesInAll, placesIn, List.cons_append, deltas, deltas_append]
  rfl

theorem lastDepth_placesInAll_cons (around : List α) (previous : Int) (entry : α)
    (children trees : List (EntryTree α)) :
    lastDepth previous (placesInAll around (.node entry children :: trees)) =
      lastDepth (lastDepth around.length (placesInAll (entry :: around) children))
        (placesInAll around trees) := by
  rw [placesInAll, placesIn, List.cons_append, lastDepth, lastDepth_append]
  rfl

/-- What comes behind the children of an entry lies outside of the entry. -/
theorem leaves_children {entry : α} {around : List α} {previous : Int}
    {trees : List (EntryTree α)} {rest : List (Int × α)}
    (leaves : ∀ node ∈ rest.head?,
      lastDepth previous (placesInAll around trees) + node.1 < around.length) :
    ∀ node ∈ (deltas previous (placesInAll around trees) ++ rest).head?,
      previous + node.1 < (entry :: around).length := by
  intro node head
  cases trees with
  | nil =>
      have bound := leaves node head
      simp only [placesInAll, lastDepth, List.length_cons] at bound ⊢
      omega
  | cons tree trees =>
      obtain ⟨sibling, children⟩ := tree
      rw [deltas_placesInAll_cons, List.cons_append, List.head?_cons, Option.mem_some_iff] at head
      subst head
      simp only [List.length_cons]
      omega

/-- Trees are read off nodes in one way only, up to the first node outside of `around`. -/
theorem trees_unique {around : List α} {previous : Int} :
    ∀ {trees others : List (EntryTree α)} {rest otherRest : List (Int × α)},
      deltas previous (placesInAll around trees) ++ rest =
        deltas previous (placesInAll around others) ++ otherRest →
      (∀ node ∈ rest.head?,
        lastDepth previous (placesInAll around trees) + node.1 < around.length) →
      (∀ node ∈ otherRest.head?,
        lastDepth previous (placesInAll around others) + node.1 < around.length) →
      trees = others ∧ rest = otherRest
  | [], [], _, _, same, _, _ => ⟨rfl, same⟩
  | [], .node entry children :: others, rest, otherRest, same, leaves, _ => by
      rw [deltas_placesInAll_cons] at same
      have bound := leaves _ (congrArg List.head? same)
      simp only [placesInAll, lastDepth] at bound
      omega
  | .node entry children :: trees, [], rest, otherRest, same, _, leaves => by
      rw [deltas_placesInAll_cons] at same
      have bound := leaves _ (congrArg List.head? same.symm)
      simp only [placesInAll, lastDepth] at bound
      omega
  | .node entry children :: trees, .node other otherChildren :: others, rest, otherRest, same,
      leaves, leavesToo => by
      rw [deltas_placesInAll_cons, deltas_placesInAll_cons, List.cons_append, List.cons_append,
        List.append_assoc, List.append_assoc] at same
      rw [lastDepth_placesInAll_cons] at leaves leavesToo
      obtain ⟨first, below⟩ := List.cons.inj same
      cases first
      obtain ⟨rfl, behind⟩ := trees_unique below (leaves_children leaves) (leaves_children leavesToo)
      obtain ⟨rfl, rfl⟩ := trees_unique behind leaves leavesToo
      exact ⟨rfl, rfl⟩

theorem stream_injective {tree other : EntryTree α} (same : tree.stream = other.stream) :
    tree = other := by
  obtain ⟨root, children⟩ := tree
  obtain ⟨otherRoot, otherChildren⟩ := other
  obtain ⟨first, below⟩ := List.cons.inj same
  cases first
  have alike : deltas 0 (placesInAll [root] children) ++ [] =
      deltas 0 (placesInAll [root] otherChildren) ++ [] := congrArg (· ++ []) below
  have ends : ∀ trees, ∀ node ∈ ([] : List (Int × α)).head?,
      lastDepth 0 (placesInAll [root] trees) + node.1 < [root].length := by
    simp
  rw [(trees_unique alike (ends children) (ends otherChildren)).1]

end EntryTree

end Symbolization
