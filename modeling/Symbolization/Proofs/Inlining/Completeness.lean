import Symbolization.Inlining
import Symbolization.Proofs.Scopes.Answers
import Symbolization.Proofs.Scopes.Nesting
import Symbolization.Proofs.Session.Requests

/-!
# Completeness of inlining

The frames of an address are built from the innermost scope outward.  Where the scopes of a unit
are properly nested this way leads through every inlined call whose code holds the address.
-/

namespace Symbolization

theorem InlinedCall.frames_eq (outerName : String) (position : FramePosition)
    (calls : List InlinedCall) :
    ∃ inlined last, frames outerName position calls = inlined ++ [last] ∧
      inlined.map (fun frame => (frame.name, frame.isInlined)) =
        calls.map (fun call => (call.name, true)) ∧
      last.name = outerName ∧ last.isInlined = false := by
  induction calls generalizing position with
  | nil => exact ⟨[], .placed outerName position false, rfl, rfl, rfl, rfl⟩
  | cons call calls induction =>
      obtain ⟨inlined, last, split, names, outermost⟩ := induction call.site
      refine ⟨.placed call.name position true :: inlined, last, ?_, ?_, outermost⟩
      · rw [frames, split, List.cons_append]
      · rw [List.map_cons, List.map_cons, names]
        rfl

namespace DebugView

def isInlinedAt (view : DebugView) (address : UInt64) (entry : EntryHandle) : Bool :=
  view.tag entry == some .inlinedSubroutine && (view.ranges entry).any (·.contains address)

/-- The inlined calls of a unit whose code holds the address, in pre-order. -/
def inlinedAt (view : DebugView) (tree : EntryTree EntryHandle) (address : UInt64) :
    List (EntryPlace EntryHandle) :=
  tree.places.filter fun place => view.isInlinedAt address place.entry

/-- The frames at an address are one for every inlined call of the unit whose code holds it, from
the most deeply nested one outward, and behind them one for the function around them all. -/
structure InlinesAll (view : DebugView) (unit : UnitHandle) (tree : EntryTree EntryHandle)
    (address : UInt64) (outer : Frame) : Prop where
  nested : (view.inlinedAt tree address).Pairwise EntryPlace.Encloses
  frames : ∃ inlined last, view.inlineFrames unit address outer = inlined ++ [last] ∧
    inlined.map (fun frame => (frame.name, frame.isInlined)) =
      (view.inlinedAt tree address).reverse.map
        (fun place => ((view.linkageName place.entry).getD unknownText, true)) ∧
    last.name = outer.name ∧ (outer.isInlined = false → last.isInlined = false)
  count : (view.inlineFrames unit address outer).length = (view.inlinedAt tree address).length + 1

variable {view : DebugView} {unit : UnitHandle} {tree : EntryTree EntryHandle} {address : UInt64}

theorem coverage_of_inlined {entry : EntryHandle}
    (inlined : view.tag entry == some .inlinedSubroutine) :
    view.coverage address entry =
      if (view.ranges entry).any (·.contains address) then .covered else .missed := by
  have scope : (view.tag entry).any Tag.isScope := by
    rw [beq_iff_eq.mp inlined]
    decide
  rw [coverage, if_pos scope]

theorem filter_covering :
    ((tree.covering (view.coverage address)).filter fun place =>
      view.tag place.entry == some .inlinedSubroutine) = view.inlinedAt tree address := by
  rw [EntryTree.covering, List.filter_filter, inlinedAt]
  apply List.filter_congr
  intro place member
  cases inlined : view.tag place.entry == some .inlinedSubroutine with
  | false => rw [isInlinedAt, inlined, Bool.false_and, Bool.false_and]
  | true =>
      rw [isInlinedAt, inlined, coverage_of_inlined inlined]
      cases (view.ranges place.entry).any (·.contains address) <;> rfl

/-- The scopes from the innermost one outward lead through every inlined call at the address. -/
theorem inlinedCalls_eq (nested : tree.ProperlyNested view.coverage)
    (innermost : tree.IsInnermost (view.coverage address) (view.scopes unit address)) :
    view.inlinedCalls unit address =
      (view.inlinedAt tree address).reverse.map fun place => view.inlinedCall place.entry := by
  have isScope : ∀ entry, view.tag entry == some .inlinedSubroutine →
      view.coverage address entry ≠ .neutral := by
    intro entry inlined
    rw [coverage_of_inlined inlined]
    split <;> decide
  rw [inlinedCalls, innermost.filter_chain nested isScope, filter_covering, List.map_map]
  rfl

/-- There is a frame for every inlined call that is found, and one more. -/
theorem inlineFrames_split (view : DebugView) (unit : UnitHandle) (address : UInt64)
    (outer : Frame) :
    ∃ inlined last, view.inlineFrames unit address outer = inlined ++ [last] ∧
      inlined.map (fun frame => (frame.name, frame.isInlined)) =
        (view.inlinedCalls unit address).map (fun call => (call.name, true)) ∧
      last.name = outer.name ∧ (outer.isInlined = false → last.isInlined = false) := by
  by_cases noScope : (view.scopes unit address).isEmpty
  · refine ⟨[], outer, ?_, ?_, rfl, id⟩
    · rw [inlineFrames, if_pos noScope, List.nil_append]
    · rw [inlinedCalls, List.isEmpty_iff.mp noScope]
      rfl
  · obtain ⟨inlined, last, split, names, name, outermost⟩ :=
      InlinedCall.frames_eq outer.name outer.position (view.inlinedCalls unit address)
    refine ⟨inlined, last, ?_, names, name, fun _ => outermost⟩
    rw [inlineFrames, if_neg noScope, split]

theorem inlinesAll_of_isInnermost (nested : tree.ProperlyNested view.coverage)
    (innermost : tree.IsInnermost (view.coverage address) (view.scopes unit address))
    (outer : Frame) : view.InlinesAll unit tree address outer := by
  obtain ⟨inlined, last, split, names, outermost⟩ :=
    view.inlineFrames_split unit address outer
  rw [inlinedCalls_eq nested innermost, List.map_map] at names
  refine ⟨(nested.pairwise_covering address).sublist ?_, ⟨inlined, last, split, names, outermost⟩,
    ?_⟩
  · rw [← filter_covering]
    exact List.filter_sublist
  · have count := congrArg List.length names
    rw [List.length_map, List.length_map, List.length_reverse] at count
    rw [split, List.length_append, count, List.length_singleton]

end DebugView

/-- On a unit whose scopes are properly nested no inlined call is lost and none shows up twice:
`n` of them that hold an address give `n + 1` frames. -/
theorem inlinesAll_of_properlyNested :
    (∀ (session : ImageSession) (unit : UnitHandle) (tree : EntryTree EntryHandle),
      session.HasTree unit tree → tree.ProperlyNested session.view.coverage →
        ∀ address outer, session.view.InlinesAll unit tree address outer) ∧
    ∀ (session : InMemorySession) (unit : UnitHandle) (tree : EntryTree EntryHandle),
      session.HasTree unit tree → tree.ProperlyNested session.view.coverage →
        ∀ address outer, session.view.InlinesAll unit tree address outer := by
  constructor
  · intro session unit tree hasTree nested address outer
    exact DebugView.inlinesAll_of_isInnermost nested
      (ImageSession.isInnermost_scopes hasTree address) outer
  · intro session unit tree hasTree nested address outer
    exact DebugView.inlinesAll_of_isInnermost nested
      (InMemorySession.isInnermost_scopes hasTree address) outer

namespace InMemorySession

/-- One module with a routine in which a call was inlined, and another one inside that. -/
def withNestedCalls : InMemorySession :=
  let scope (parent : Nat) (tag : Tag) (name : String) (range : AddressInterval) : MemoryEntry :=
    { parent
      tag
      name := some name
      ranges := [range]
      isDeclaration := false
      callSite := .unknown }
  .ofModules [{
    name := "libfoo.so"
    bias := 0
    extent := ⟨0, 0x1000⟩
    symbols := []
    units := [(((MemoryUnit.new 0).addEntry
      (scope 0 .subprogram "run" ⟨0, 0x100⟩) (by decide)).addEntry
      (scope 1 .inlinedSubroutine "step" ⟨0x10, 0x80⟩) (by decide)).addEntry
      (scope 2 .inlinedSubroutine "load" ⟨0x20, 0x40⟩) (by decide)]
    assignments := []
    isVisible := true }]

def nestedTree : EntryTree EntryHandle :=
  let entry (offset : Nat) : EntryHandle := ⟨⟨⟨1⟩, 0⟩, offset⟩
  .node (entry 0) [.node (entry 1) [.node (entry 2) [.node (entry 3) []]]]

theorem hasTree_nestedTree : withNestedCalls.HasTree ⟨⟨1⟩, 0⟩ nestedTree := by
  refine ⟨_, rfl, ?_⟩
  cbv

theorem coverage_withNestedCalls (address : UInt64) (offset : Nat) :
    withNestedCalls.view.coverage address ⟨⟨⟨1⟩, 0⟩, offset⟩ =
      match offset with
      | 1 => if address < 0x100 then .covered else .missed
      | 2 => if 0x10 ≤ address ∧ address < 0x80 then .covered else .missed
      | 3 => if 0x20 ≤ address ∧ address < 0x40 then .covered else .missed
      | _ => .neutral := by
  match offset with
  | 0 => rfl
  | 1 =>
      change (if AddressInterval.contains ⟨0, 0x100⟩ address || false
        then Coverage.covered else .missed) = _
      simp [AddressInterval.contains]
  | 2 =>
      change (if AddressInterval.contains ⟨0x10, 0x80⟩ address || false
        then Coverage.covered else .missed) = _
      simp [AddressInterval.contains]
  | 3 =>
      change (if AddressInterval.contains ⟨0x20, 0x40⟩ address || false
        then Coverage.covered else .missed) = _
      simp [AddressInterval.contains]
  | offset + 4 => rfl

theorem properlyNested_nestedTree :
    nestedTree.ProperlyNested withNestedCalls.view.coverage := by
  constructor
  · intro place member outer around address covered
    simp only [nestedTree, EntryTree.places, EntryTree.placesIn, EntryTree.placesInAll,
      List.append_nil, List.mem_cons, List.not_mem_nil, or_false] at member
    rcases member with rfl | rfl | rfl | rfl
    · contradiction
    · grind [coverage_withNestedCalls]
    · grind [coverage_withNestedCalls]
    · grind [coverage_withNestedCalls]
  · have chain : nestedTree.places.Pairwise EntryPlace.Encloses := by
      simp [nestedTree, EntryTree.places, EntryTree.placesIn, EntryTree.placesInAll,
        EntryPlace.Encloses, EntryPlace.chain, List.suffix_cons_iff]
    exact chain.imp fun encloses apart => absurd encloses apart

end InMemorySession

namespace Dwarf

/-- A unit with a routine in which two calls were inlined, and another one inside the first of them. -/
def nestedCalls : Sections where
  endian := .little
  info := ⟨#[0x30, 0, 0, 0, 4, 0, 0, 0, 0, 0, 2, 1, 2, 0x72, 0x75, 0x6e, 0, 0, 0x10, 0x80,
    3, 0x73, 0x74, 0x65, 0x70, 0, 0x10, 0x10, 0x20, 3, 0x6c, 0x6f, 0x61, 0x64, 0, 0x18, 0x10, 8, 0, 0,
    3, 0x70, 0x65, 0x65, 0x6b, 0, 0x30, 0x10, 0x10, 0, 0, 0]⟩
  abbreviations := ⟨#[1, 0x11, 1, 0, 0, 2, 0x2e, 1, 3, 8, 0x11, 1, 0x12, 0x0b, 0, 0,
    3, 0x1d, 1, 3, 8, 0x11, 1, 0x12, 0x0b, 0, 0, 0]⟩
  lines := .empty
  texts := .empty
  lineTexts := .empty
  textOffsets := .empty
  addresses := .empty
  ranges := .empty
  rangeLists := .empty
  addressTable := .empty

end Dwarf

namespace ImageSession

def withNestedCalls : ImageSession :=
  run (.new fun _ => .error .notFound)
    [.reportBegin,
      .reportImage { bareImage "libfoo.so" 0x1000 0x1000 with debug := .ofSections Dwarf.nestedCalls },
      .reportEnd]

def nestedEntry (offset : Nat) : EntryHandle := ⟨⟨⟨1⟩, 0⟩, offset⟩

def nestedTree : EntryTree EntryHandle :=
  .node (nestedEntry 11) [.node (nestedEntry 12)
    [.node (nestedEntry 20) [.node (nestedEntry 29) []], .node (nestedEntry 40) []]]

theorem hasTree_nestedTree : withNestedCalls.HasTree ⟨⟨1⟩, 0⟩ nestedTree := by
  have read : (withNestedCalls.unit? ⟨⟨1⟩, 0⟩).map (fun found =>
      found.2.entries.all.map (Prod.map id fun entry => nestedEntry entry.offset)) =
        some nestedTree.stream := by
    decide +kernel
  obtain ⟨⟨image, unit⟩, found, stream⟩ := Option.map_eq_some_iff.mp read
  exact (hasTree_iff found).mpr stream

theorem coverage_withNestedCalls (address : UInt64) :
    let coverage (offset : Nat) := withNestedCalls.view.coverage address (nestedEntry offset)
    let covers (interval : AddressInterval) : Coverage :=
      if interval.contains address then .covered else .missed
    coverage 11 = .neutral ∧ coverage 12 = covers ⟨0x1000, 0x1080⟩ ∧
      coverage 20 = covers ⟨0x1010, 0x1030⟩ ∧ coverage 29 = covers ⟨0x1018, 0x1020⟩ ∧
      coverage 40 = covers ⟨0x1030, 0x1040⟩ := by
  have answers : [11, 12, 20, 29, 40].map (fun offset =>
      ((withNestedCalls.view.tag (nestedEntry offset)).any Tag.isScope,
        withNestedCalls.view.ranges (nestedEntry offset))) =
      [(false, []), (true, [⟨0x1000, 0x1080⟩]), (true, [⟨0x1010, 0x1030⟩]),
        (true, [⟨0x1018, 0x1020⟩]), (true, [⟨0x1030, 0x1040⟩])] := by
    decide +kernel
  simp only [List.map_cons, List.map_nil, List.cons.injEq, Prod.mk.injEq, and_true] at answers
  simp [DebugView.coverage, answers]

theorem properlyNested_nestedTree :
    nestedTree.ProperlyNested withNestedCalls.view.coverage := by
  have places : nestedTree.places = [⟨nestedEntry 11, []⟩, ⟨nestedEntry 12, [nestedEntry 11]⟩,
      ⟨nestedEntry 20, [nestedEntry 12, nestedEntry 11]⟩,
      ⟨nestedEntry 29, [nestedEntry 20, nestedEntry 12, nestedEntry 11]⟩,
      ⟨nestedEntry 40, [nestedEntry 12, nestedEntry 11]⟩] :=
    rfl
  have coverage := coverage_withNestedCalls
  simp only [AddressInterval.contains, Bool.and_eq_true, decide_eq_true_eq] at coverage
  constructor
  · intro place member outer around address covered
    have covers := coverage address
    simp only [places, List.mem_cons, List.not_mem_nil, or_false] at member
    rcases member with rfl | rfl | rfl | rfl | rfl
    · exact absurd around List.not_mem_nil
    · grind
    · grind
    · grind
    · grind
  · have besideStep : ∀ address,
        withNestedCalls.view.coverage address (nestedEntry 20) = .covered →
          ¬ withNestedCalls.view.coverage address (nestedEntry 40) = .covered := by
      grind
    have besideLoad : ∀ address,
        withNestedCalls.view.coverage address (nestedEntry 29) = .covered →
          ¬ withNestedCalls.view.coverage address (nestedEntry 40) = .covered := by
      grind
    have ofRoot : ∀ address,
        withNestedCalls.view.coverage address (nestedEntry 11) ≠ .covered := by
      grind
    simpa [places, EntryPlace.Encloses, EntryPlace.chain, List.suffix_cons_iff, ofRoot] using
      And.intro besideStep besideLoad

end ImageSession

/-- Where two inlined calls hold the address there are three frames, in memory and in an image. -/
theorem inlinesAll_nestedTree :
    ((∀ address outer,
        InMemorySession.withNestedCalls.view.InlinesAll ⟨⟨1⟩, 0⟩ InMemorySession.nestedTree address
          outer) ∧
      ∀ outer,
        (InMemorySession.withNestedCalls.view.inlineFrames ⟨⟨1⟩, 0⟩ 0x30 outer).length = 3) ∧
    (∀ address outer,
        ImageSession.withNestedCalls.view.InlinesAll ⟨⟨1⟩, 0⟩ ImageSession.nestedTree address
          outer) ∧
      ∀ outer, outer.isInlined = false →
        (ImageSession.withNestedCalls.view.inlineFrames ⟨⟨1⟩, 0⟩ 0x1018 outer).map
          (fun frame => (frame.name, frame.isInlined)) =
            [("load", true), ("step", true), (outer.name, false)] := by
  obtain ⟨inImages, inMemory⟩ := inlinesAll_of_properlyNested
  have ofMemory := inMemory _ ⟨⟨1⟩, 0⟩ _ InMemorySession.hasTree_nestedTree
    InMemorySession.properlyNested_nestedTree
  have ofImage := inImages _ ⟨⟨1⟩, 0⟩ _ ImageSession.hasTree_nestedTree
    ImageSession.properlyNested_nestedTree
  refine ⟨⟨ofMemory, ?_⟩, ofImage, ?_⟩
  · intro outer
    have two : (InMemorySession.withNestedCalls.view.inlinedAt InMemorySession.nestedTree
        0x30).length = 2 := by
      cbv
    rw [(ofMemory 0x30 outer).count, two]
  · intro outer notInlined
    have names : (ImageSession.withNestedCalls.view.inlinedAt ImageSession.nestedTree
        0x1018).reverse.map (fun place =>
          ((ImageSession.withNestedCalls.view.linkageName place.entry).getD unknownText, true)) =
        [("load", true), ("step", true)] := by
      decide +kernel
    obtain ⟨inlined, last, split, inlinedNames, name, isLast⟩ := (ofImage 0x1018 outer).frames
    rw [split, List.map_append, inlinedNames, names, List.map_singleton, name, isLast notInlined]
    rfl

end Symbolization
