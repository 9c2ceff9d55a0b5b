import Mathlib.Data.List.Perm.Basic
import Mathlib.Logic.Function.Iterate
import Symbolization.Index.RangeSet
import Symbolization.Proofs.Scopes.Tree
import Symbolization.Session.InMemory

/-!
# What a walk over the entries gathers

The ranges of a unit are gathered with a list of the entries below which there is still something to
look at.  The walk takes an entry off the list, looks at its children in turn, and puts those in
front of the list below which routines may lie.  Whatever the numbers of the entries, on a finite
tree the list gets empty, and by then every routine that is not inside of a declaration has given
its ranges as often as a recursion over the tree meets it.
-/

namespace Symbolization

/-- The range with both ends moved by the bias modulo 2^64, if it is not empty then. -/
def AddressInterval.relocated? (bias : UInt64) (range : AddressInterval) :
    Option AddressInterval :=
  let low := (range.low.toNat + bias.toNat) % UInt64.size
  let high := (range.high.toNat + bias.toNat) % UInt64.size
  if low < high then some ⟨.ofNat low, .ofNat high⟩ else none

theorem AddressInterval.relocated?_eq (bias : UInt64) (range : AddressInterval) :
    range.relocated? bias =
      if (range.shift bias).low < (range.shift bias).high then some (range.shift bias)
      else none := by
  have low : (range.low + bias).toNat = (range.low.toNat + bias.toNat) % UInt64.size :=
    UInt64.toNat_add range.low bias
  have high : (range.high + bias).toNat = (range.high.toNat + bias.toNat) % UInt64.size :=
    UInt64.toNat_add range.high bias
  simp only [relocated?, shift, UInt64.lt_iff_toNat_lt, ← low, ← high, UInt64.ofNat_toNat]

namespace EntryTree

variable {α : Type}

def top : EntryTree α → α
  | .node entry _ => entry

/-- The trees right below an entry are those of its children in their order. -/
inductive Unfolds (children : α → List α) : EntryTree α → Prop where
  | node {entry : α} {trees : List (EntryTree α)} (tops : trees.map top = children entry)
      (below : ∀ tree ∈ trees, Unfolds children tree) : Unfolds children (.node entry trees)

theorem exists_map_top {children : α → List α} {entries : List α}
    (each : ∀ entry ∈ entries, ∃ tree : EntryTree α, tree.top = entry ∧ tree.Unfolds children) :
    ∃ trees : List (EntryTree α), trees.map top = entries ∧
      ∀ tree ∈ trees, tree.Unfolds children := by
  induction entries with
  | nil => exact ⟨[], rfl, by simp⟩
  | cons entry entries induction =>
      obtain ⟨tree, rfl, unfolds⟩ := each entry List.mem_cons_self
      obtain ⟨trees, rfl, others⟩ :=
        induction fun other member => each other (List.mem_cons_of_mem _ member)
      exact ⟨tree :: trees, rfl, List.forall_mem_cons.mpr ⟨unfolds, others⟩⟩

end EntryTree

/-- What a session answers about its entries.  Nothing is said of how they are numbered. -/
structure EntryAnswers where
  children : EntryHandle → List EntryHandle
  tag : EntryHandle → Option Tag
  isDeclaration : EntryHandle → Bool
  ranges : EntryHandle → List AddressInterval

def DebugView.entryAnswers (view : DebugView) : EntryAnswers :=
  ⟨view.children, view.tag, view.isDeclaration, view.ranges⟩

/-- The entries whose children are still to be looked at, the next one first, and the ranges that
were found so far. -/
structure Gathering where
  pending : List EntryHandle
  ranges : List AddressInterval

namespace EntryAnswers

/-! The ranges of a tree by recursion. -/

/-- The ranges at run time of a routine, called or inlined.  Other entries count for nothing. -/
def contributed (answers : EntryAnswers) (bias : UInt64) (entry : EntryHandle) :
    List AddressInterval :=
  if answers.tag entry = some .subprogram ∨ answers.tag entry = some .inlinedSubroutine then
    (answers.ranges entry).filterMap (·.relocated? bias)
  else []

mutual

/-- The ranges below the entry at the top of a tree. -/
def visit (answers : EntryAnswers) (bias : UInt64) : EntryTree EntryHandle → List AddressInterval
  | .node _ children => answers.visitAll bias children

/-- The ranges of children, each followed by what is below it unless it is a declaration. -/
def visitAll (answers : EntryAnswers) (bias : UInt64) :
    List (EntryTree EntryHandle) → List AddressInterval
  | [] => []
  | child :: children =>
    answers.contributed bias child.top ++
      (if answers.isDeclaration child.top then [] else answers.visit bias child) ++
      answers.visitAll bias children

end

/-! The same ranges by a worklist. -/

/-- Adds a range at run time unless it is empty there. -/
def add (bias : UInt64) (ranges : List AddressInterval) (range : AddressInterval) :
    List AddressInterval :=
  let placed := range.shift bias
  if placed.high ≤ placed.low then ranges else ranges ++ [placed]

def look (answers : EntryAnswers) (bias : UInt64) (walk : Gathering) (child : EntryHandle) :
    Gathering where
  ranges :=
    if (answers.tag child).any Tag.isRoutine then (answers.ranges child).foldl (add bias) walk.ranges
    else walk.ranges
  pending := if answers.isDeclaration child then walk.pending else child :: walk.pending

/-- Takes the next entry off the list and looks at its children. -/
def round (answers : EntryAnswers) (bias : UInt64) (walk : Gathering) : Gathering :=
  match walk.pending with
  | [] => walk
  | entry :: pending => (answers.children entry).foldl (answers.look bias) ⟨pending, walk.ranges⟩

/-- A walk from `root` on has come to its end, and has found the ranges. -/
def Ends (answers : EntryAnswers) (bias : UInt64) (root : EntryHandle)
    (ranges : List AddressInterval) : Prop :=
  ∃ rounds, (answers.round bias)^[rounds] ⟨[root], []⟩ = ⟨[], ranges⟩

variable {answers : EntryAnswers} {bias : UInt64}

theorem foldl_add (ranges found : List AddressInterval) :
    ranges.foldl (add bias) found = found ++ ranges.filterMap (·.relocated? bias) := by
  induction ranges generalizing found with
  | nil => exact (List.append_nil found).symm
  | cons range ranges induction =>
      rw [List.foldl_cons, induction, List.filterMap_cons, AddressInterval.relocated?_eq]
      by_cases kept : (range.shift bias).low < (range.shift bias).high
      · simp [add, kept, UInt64.not_le.mpr kept]
      · simp [add, kept, UInt64.not_lt.mp kept]

theorem any_isRoutine {tag : Option Tag} :
    tag.any Tag.isRoutine ↔ tag = some .subprogram ∨ tag = some .inlinedSubroutine := by
  cases tag with
  | none => simp
  | some tag => simp [Tag.isRoutine]

theorem look_eq (walk : Gathering) (child : EntryHandle) :
    answers.look bias walk child =
      ⟨(if answers.isDeclaration child then [] else [child]) ++ walk.pending,
        walk.ranges ++ answers.contributed bias child⟩ := by
  have ranges : (answers.look bias walk child).ranges =
      walk.ranges ++ answers.contributed bias child := by
    simp only [look, contributed, any_isRoutine, foldl_add]
    split
    · rfl
    · exact (List.append_nil _).symm
  rw [← ranges]
  simp only [look]
  split <;> rfl

/-- The children below which routines may lie. -/
def openChildren (answers : EntryAnswers) (entry : EntryHandle) : List EntryHandle :=
  (answers.children entry).filter fun child => !answers.isDeclaration child

theorem foldl_look (children : List EntryHandle) (walk : Gathering) :
    children.foldl (answers.look bias) walk =
      ⟨(children.filter fun child => !answers.isDeclaration child).reverse ++ walk.pending,
        walk.ranges ++ children.flatMap (answers.contributed bias)⟩ := by
  induction children generalizing walk with
  | nil => simp
  | cons child children induction =>
      rw [List.foldl_cons, induction, look_eq, List.filter_cons]
      cases answers.isDeclaration child <;> simp

/-- One round replaces an entry by its open children, the last one first. -/
theorem round_cons (entry : EntryHandle) (pending : List EntryHandle)
    (ranges : List AddressInterval) :
    answers.round bias ⟨entry :: pending, ranges⟩ =
      ⟨(answers.openChildren entry).reverse ++ pending,
        ranges ++ (answers.children entry).flatMap (answers.contributed bias)⟩ :=
  foldl_look (answers.children entry) ⟨pending, ranges⟩

/-- A walk gets through the entries, whatever is behind them on the list, and finds the ranges. -/
def Leads (answers : EntryAnswers) (bias : UInt64) (entries : List EntryHandle)
    (found : List AddressInterval) : Prop :=
  ∃ rounds, ∀ pending ranges,
    (answers.round bias)^[rounds] ⟨entries ++ pending, ranges⟩ = ⟨pending, ranges ++ found⟩

namespace Leads

variable {first second : List EntryHandle} {found further : List AddressInterval}

theorem nil : answers.Leads bias [] [] := by
  refine ⟨0, ?_⟩
  intro pending ranges
  rw [List.append_nil]
  rfl

theorem append (before : answers.Leads bias first found)
    (after : answers.Leads bias second further) :
    answers.Leads bias (first ++ second) (found ++ further) := by
  obtain ⟨rounds, leads⟩ := before
  obtain ⟨more, leadsOn⟩ := after
  refine ⟨more + rounds, ?_⟩
  intro pending ranges
  rw [Function.iterate_add_apply, List.append_assoc, leads, leadsOn, List.append_assoc]

theorem enter {entry : EntryHandle}
    (below : answers.Leads bias ((answers.openChildren entry).reverse ++ first) found) :
    answers.Leads bias (entry :: first)
      ((answers.children entry).flatMap (answers.contributed bias) ++ found) := by
  obtain ⟨rounds, leads⟩ := below
  refine ⟨rounds + 1, ?_⟩
  intro pending ranges
  rw [Function.iterate_add_apply, Function.iterate_one, List.cons_append, round_cons,
    ← List.append_assoc, leads, List.append_assoc]

theorem ends {root : EntryHandle} (leads : answers.Leads bias [root] found) :
    answers.Ends bias root found := by
  obtain ⟨rounds, leads⟩ := leads
  exact ⟨rounds, leads [] []⟩

end Leads

/-- Where a walk has ended nothing happens any more, so all walks from a root end alike. -/
theorem Ends.unique {root : EntryHandle} {left right : List AddressInterval}
    (first : answers.Ends bias root left) (second : answers.Ends bias root right) :
    left = right := by
  have rests : ∀ rounds ranges, (answers.round bias)^[rounds] ⟨[], ranges⟩ = ⟨[], ranges⟩ :=
    fun rounds ranges => Function.iterate_fixed rfl rounds
  obtain ⟨rounds, ends⟩ := first
  obtain ⟨others, otherEnds⟩ := second
  have same : (⟨[], left⟩ : Gathering) = ⟨[], right⟩ := by
    calc (⟨[], left⟩ : Gathering)
        = (answers.round bias)^[others] ((answers.round bias)^[rounds] ⟨[root], []⟩) := by
          rw [ends, rests]
      _ = (answers.round bias)^[rounds] ((answers.round bias)^[others] ⟨[root], []⟩) := by
          rw [← Function.iterate_add_apply, Nat.add_comm, Function.iterate_add_apply]
      _ = ⟨[], right⟩ := by rw [otherEnds, rests]
  exact congrArg Gathering.ranges same

/-! The worklist against the recursion. -/

theorem visitAll_eq_flatMap (trees : List (EntryTree EntryHandle)) :
    answers.visitAll bias trees =
      trees.flatMap fun tree => answers.contributed bias tree.top ++
        if answers.isDeclaration tree.top then [] else answers.visit bias tree := by
  induction trees with
  | nil => rfl
  | cons tree trees induction => rw [visitAll, induction, List.flatMap_cons]

theorem flatMap_filter_isDeclaration (trees : List (EntryTree EntryHandle)) :
    (trees.filter fun tree => !answers.isDeclaration tree.top).flatMap (answers.visit bias) =
      trees.flatMap fun tree =>
        if answers.isDeclaration tree.top then [] else answers.visit bias tree := by
  induction trees with
  | nil => rfl
  | cons tree trees induction =>
      rw [List.filter_cons, List.flatMap_cons, ← induction]
      cases answers.isDeclaration tree.top <;> rfl

theorem perm_visitAll (trees : List (EntryTree EntryHandle)) :
    ((trees.map EntryTree.top).flatMap (answers.contributed bias) ++
        (trees.filter fun tree => !answers.isDeclaration tree.top).flatMap
          (answers.visit bias)).Perm
      (answers.visitAll bias trees) := by
  rw [flatMap_filter_isDeclaration, visitAll_eq_flatMap, List.flatMap_map]
  exact List.flatMap_append_perm trees _ _

/-- What holds of the walk through each tree holds of the walk through all of them. -/
theorem exists_leads_map_top (trees : List (EntryTree EntryHandle))
    (each : ∀ tree ∈ trees, ∃ found, answers.Leads bias [tree.top] found ∧
      found.Perm (answers.visit bias tree)) :
    ∃ found, answers.Leads bias (trees.map EntryTree.top) found ∧
      found.Perm (trees.flatMap (answers.visit bias)) := by
  induction trees with
  | nil => exact ⟨[], .nil, .nil⟩
  | cons tree trees induction =>
      obtain ⟨found, leads, perm⟩ := each tree List.mem_cons_self
      obtain ⟨further, leadsOn, permOn⟩ :=
        induction fun other member => each other (List.mem_cons_of_mem _ member)
      exact ⟨found ++ further, leads.append leadsOn, perm.append permOn⟩

/-- The walk gets through every finite tree and finds the ranges that the recursion finds. -/
theorem exists_leads (bias : UInt64) {tree : EntryTree EntryHandle}
    (unfolds : tree.Unfolds answers.children) :
    ∃ found, answers.Leads bias [tree.top] found ∧ found.Perm (answers.visit bias tree) := by
  induction unfolds with
  | @node entry trees tops below induction =>
      let opened := trees.filter fun tree => !answers.isDeclaration tree.top
      have reversed : (answers.openChildren entry).reverse = opened.reverse.map EntryTree.top := by
        rw [openChildren, ← tops, List.filter_map, List.map_reverse]
        rfl
      obtain ⟨found, leads, perm⟩ := exists_leads_map_top opened.reverse
        fun tree member =>
          induction tree (List.mem_of_mem_filter (List.mem_reverse.mp member))
      rw [← reversed, ← List.append_nil (answers.openChildren entry).reverse] at leads
      refine ⟨_, leads.enter, ?_⟩
      rw [visit, ← tops]
      have unordered : (opened.reverse.flatMap (answers.visit bias)).Perm
          (opened.flatMap (answers.visit bias)) :=
        opened.reverse_perm.flatMap_right _
      exact ((perm.trans unordered).append_left _).trans (perm_visitAll trees)

/-- The walk from a root ends with the ranges, and the recursion over the tree of the root finds the
same ranges, each as often. -/
structure Gathers (answers : EntryAnswers) (bias : UInt64) (root : EntryHandle)
    (ranges : List AddressInterval) : Prop where
  ends : answers.Ends bias root ranges
  perm : ∀ tree : EntryTree EntryHandle, tree.top = root → tree.Unfolds answers.children →
    ranges.Perm (answers.visit bias tree)

theorem gathers_of_ends {root : EntryHandle} {ranges : List AddressInterval}
    (ends : answers.Ends bias root ranges) : answers.Gathers bias root ranges := by
  refine ⟨ends, ?_⟩
  rintro tree rfl unfolds
  obtain ⟨found, leads, perm⟩ := exists_leads bias unfolds
  rw [ends.unique leads.ends]
  exact perm

end EntryAnswers

namespace DebugView

theorem contributed_entryAnswers (view : DebugView) (bias : UInt64) (entry : EntryHandle) :
    view.entryAnswers.contributed bias entry = view.codeRanges bias entry := by
  have placed : ∀ ranges : List AddressInterval, ranges.filterMap (·.relocated? bias) =
      (ranges.map (·.shift bias)).filter fun range => range.low < range.high := by
    intro ranges
    induction ranges with
    | nil => rfl
    | cons range ranges induction =>
        rw [List.filterMap_cons, List.map_cons, List.filter_cons, induction,
          AddressInterval.relocated?_eq]
        by_cases kept : (range.shift bias).low < (range.shift bias).high <;> simp [kept]
  simp only [EntryAnswers.contributed, codeRanges, EntryAnswers.any_isRoutine]
  exact if_congr Iff.rfl (placed _) rfl

/-- Gathering the ranges of entries is the walk through them. -/
theorem leads_gather (view : DebugView) (bias : UInt64) (pending : List EntryHandle) :
    view.entryAnswers.Leads bias pending (view.gather bias pending) := by
  fun_induction view.gather bias pending with
  | case1 => exact .nil
  | case2 entry pending induction =>
      have same : (view.children entry).flatMap (view.codeRanges bias) =
          (view.entryAnswers.children entry).flatMap (view.entryAnswers.contributed bias) := by
        rw [funext (view.contributed_entryAnswers bias)]
        rfl
      rw [same]
      exact EntryAnswers.Leads.enter induction

theorem exists_unfolds (view : DebugView) (entry : EntryHandle) :
    ∃ tree : EntryTree EntryHandle, tree.top = entry ∧ tree.Unfolds view.children := by
  have below : ∀ child ∈ view.children entry,
      ∃ tree : EntryTree EntryHandle, tree.top = child ∧ tree.Unfolds view.children :=
    fun child member => view.exists_unfolds child
  obtain ⟨trees, tops, unfolds⟩ := EntryTree.exists_map_top below
  exact ⟨.node entry trees, rfl, .node tops unfolds⟩
  termination_by view.room entry
  decreasing_by exact view.room_child_lt member

end DebugView

/-- Over the entries of every view, as over answers of any other kind whose entries form a finite
tree, the list of the walk gets empty, and then the ranges are those of the tree. -/
theorem RangeSet.gathers_build :
    (∀ (view : DebugView) (unit : UnitHandle) (bias : UInt64),
      (view.root unit = none → (build view unit bias).ranges = []) ∧
        ∀ root, view.root unit = some root →
          (∃ tree : EntryTree EntryHandle, tree.top = root ∧ tree.Unfolds view.children) ∧
            view.entryAnswers.Gathers bias root (build view unit bias).ranges) ∧
    ∀ (answers : EntryAnswers) (bias : UInt64) (tree : EntryTree EntryHandle),
      tree.Unfolds answers.children → ∃ ranges, answers.Gathers bias tree.top ranges := by
  constructor
  · intro view unit bias
    constructor
    · intro absent
      rw [build, absent]
    · intro root found
      refine ⟨view.exists_unfolds root, ?_⟩
      rw [build, found]
      exact EntryAnswers.gathers_of_ends (view.leads_gather bias [root]).ends
  · intro answers bias tree unfolds
    obtain ⟨ranges, leads, _⟩ := EntryAnswers.exists_leads bias unfolds
    exact ⟨ranges, EntryAnswers.gathers_of_ends leads.ends⟩

namespace InMemorySession

/-- A unit with a routine in a namespace and an inlined call in it, with a routine inside of a
declaration, and with a routine that is a declaration itself. -/
def withDeclarations : InMemorySession :=
  let entry (parent code : Nat) (ranges : List AddressInterval) (isDeclaration : Bool) :
      MemoryEntry :=
    { parent
      tag := ⟨code⟩
      name := none
      ranges
      isDeclaration
      callSite := .unknown }
  .ofModules [{
    name := "libfoo.so"
    bias := 0
    extent := ⟨0, 0x1000⟩
    symbols := []
    units := [((((((MemoryUnit.new 0).addEntry
      (entry 0 0x39 [] false) (by decide)).addEntry
      (entry 1 0x2e [⟨0x300, 0x340⟩, ⟨0x80, 0x180⟩] false) (by decide)).addEntry
      (entry 2 0x1d [⟨0x310, 0x318⟩] false) (by decide)).addEntry
      (entry 0 0x13 [] true) (by decide)).addEntry
      (entry 4 0x2e [⟨0x400, 0x440⟩] false) (by decide)).addEntry
      (entry 0 0x2e [⟨0x500, 0x540⟩] true) (by decide)]
    assignments := []
    isVisible := true }]

def treeWithDeclarations : EntryTree EntryHandle :=
  let entry (offset : Nat) : EntryHandle := ⟨⟨⟨1⟩, 0⟩, offset⟩
  .node (entry 0) [.node (entry 1) [.node (entry 2) [.node (entry 3) []]],
    .node (entry 4) [.node (entry 5) []], .node (entry 6) []]

theorem unfolds_treeWithDeclarations :
    treeWithDeclarations.Unfolds withDeclarations.view.children := by
  refine .node (by cbv) ?_
  simp only [List.forall_mem_cons, List.not_mem_nil, false_implies, implies_true, and_true]
  refine ⟨.node (by cbv) ?_, .node (by cbv) ?_, .node (by cbv) (by simp)⟩
  · rw [List.forall_mem_singleton]
    refine .node (by cbv) ?_
    rw [List.forall_mem_singleton]
    exact .node (by cbv) (by simp)
  · rw [List.forall_mem_singleton]
    exact .node (by cbv) (by simp)

/-- A bias of -0x100 makes the range around 0x100 end before it starts. -/
theorem gathers_withDeclarations :
    treeWithDeclarations.Unfolds withDeclarations.view.children ∧
      withDeclarations.view.entryAnswers.visit 0xffffffffffffff00 treeWithDeclarations =
        [⟨0x200, 0x240⟩, ⟨0x210, 0x218⟩, ⟨0x400, 0x440⟩] ∧
      withDeclarations.view.entryAnswers.Gathers 0xffffffffffffff00 ⟨⟨⟨1⟩, 0⟩, 0⟩
        (RangeSet.build withDeclarations.view ⟨⟨1⟩, 0⟩ 0xffffffffffffff00).ranges ∧
      (RangeSet.build withDeclarations.view ⟨⟨1⟩, 0⟩ 0xffffffffffffff00).ranges =
        [⟨0x400, 0x440⟩, ⟨0x200, 0x240⟩, ⟨0x210, 0x218⟩] := by
  have root : withDeclarations.view.root ⟨⟨1⟩, 0⟩ = some ⟨⟨⟨1⟩, 0⟩, 0⟩ := by cbv
  have gathers := (RangeSet.gathers_build.1 withDeclarations.view ⟨⟨1⟩, 0⟩ 0xffffffffffffff00).2
    ⟨⟨⟨1⟩, 0⟩, 0⟩ root
  refine ⟨unfolds_treeWithDeclarations, ?_, gathers.2, ?_⟩
  · cbv
  · cbv

end InMemorySession

end Symbolization
