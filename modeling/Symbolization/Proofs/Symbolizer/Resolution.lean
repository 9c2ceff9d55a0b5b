import Symbolization.Proofs.Index.Transparency
import Symbolization.Proofs.Inlining.Completeness
import Symbolization.Proofs.Order.Search
import Symbolization.Proofs.Text.CleanPath

/-!
# What an answer looks like

A symbol, a unit, a position or the file of a call may be missing, each one without the others.
Whatever is missing, an address of a registered module gets the frames of the inlined calls that are
known and below them the frame of a function, and only an address of no module gets nothing.
-/

namespace Symbolization

def IsCleanFile (file : String) : Prop := file = unknownText ∨ Path.clean file = file

theorem isCleanFile_ofSource (position : SourcePosition) :
    IsCleanFile (FramePosition.ofSource position).file := by
  cases known : position.file with
  | none =>
      left
      simp [FramePosition.ofSource, known]
  | some file =>
      right
      simp [FramePosition.ofSource, known, Path.clean_clean]

theorem InlinedCall.isCleanFile_frames (outerName : String) {position : FramePosition}
    {calls : List InlinedCall} (here : IsCleanFile position.file)
    (sites : ∀ call ∈ calls, IsCleanFile call.site.file) :
    ∀ frame ∈ frames outerName position calls, IsCleanFile frame.file := by
  induction calls generalizing position with
  | nil =>
      intro frame member
      cases List.mem_singleton.mp member
      exact here
  | cons call calls induction =>
      intro frame member
      rcases List.mem_cons.mp member with rfl | below
      · exact here
      · have site := sites call (by simp)
        exact induction site (fun later member => sites later (by simp [member])) frame below

namespace DebugView

/-- Every module at an address is known by its name. -/
def Informed (view : DebugView) : Prop :=
  ∀ address module, view.moduleAt address = some module → (view.moduleInfo module).isSome

/-- The number of inlined calls around an address of a unit that may or may not be known. -/
def inlinedCount (view : DebugView) (unit : Option OwnedUnit) (address : UInt64) : Nat :=
  match unit with
  | none => 0
  | some owned =>
    (view.scopes owned.unit (address - owned.bias)).countP fun scope =>
      view.tag scope == some .inlinedSubroutine

/-- The frames of an address of a module are those of the inlined calls and, at the end, the one of
the function that its symbol names. -/
structure Locates (view : DebugView) (module : ModuleHandle) (unit : Option OwnedUnit)
    (address : UInt64) (location : ResolvedLocation) : Prop where
  frames : ∃ inlined last, location.frames = inlined ++ [last] ∧
    (∀ frame ∈ inlined, frame.isInlined = true) ∧ last.isInlined = false ∧
    last.name = ((view.nearestSymbol module address).map (·.name)).getD unknownText
  symbolOffset : location.symbolOffset =
    ((view.nearestSymbol module address).map (·.offset)).getD 0
  count : location.frames.length = 1 + view.inlinedCount unit address
  files : ∀ frame ∈ location.frames, IsCleanFile frame.file

theorem length_inlinedCalls (view : DebugView) (unit : UnitHandle) (offset : UInt64) :
    (view.inlinedCalls unit offset).length =
      (view.scopes unit offset).countP fun scope => view.tag scope == some .inlinedSubroutine := by
  rw [inlinedCalls, List.length_map, List.countP_eq_length_filter]

theorem isCleanFile_inlineFrames (view : DebugView) (unit : UnitHandle) (offset : UInt64)
    {outer : Frame} (clean : IsCleanFile outer.file) :
    ∀ frame ∈ view.inlineFrames unit offset outer, IsCleanFile frame.file := by
  rw [inlineFrames]
  split
  · intro frame member
    cases List.mem_singleton.mp member
    exact clean
  · have here : IsCleanFile outer.position.file := clean
    apply InlinedCall.isCleanFile_frames outer.name here
    intro call member
    obtain ⟨scope, _, rfl⟩ := List.mem_map.mp member
    exact isCleanFile_ofSource _

theorem frames_split (view : DebugView) (name : String) (unit : Option OwnedUnit)
    (address : UInt64) :
    ∃ inlined last, view.frames name unit address = inlined ++ [last] ∧
      (∀ frame ∈ inlined, frame.isInlined = true) ∧ last.isInlined = false ∧ last.name = name ∧
      inlined.length = view.inlinedCount unit address := by
  cases unit with
  | none => exact ⟨[], .named name, rfl, by simp, rfl, rfl, rfl⟩
  | some owned =>
      obtain ⟨inlined, last, split, calls, named, outermost⟩ :=
        view.inlineFrames_split owned.unit (address - owned.bias)
          (.placed name
            (.ofSource ((view.sourcePosition owned.unit (address - owned.bias)).getD .unknown))
            false)
      refine ⟨inlined, last, split, ?_, outermost rfl, named, ?_⟩
      · intro frame member
        have inCalls : (frame.name, frame.isInlined) ∈
            (view.inlinedCalls owned.unit (address - owned.bias)).map
              fun call => (call.name, true) := by
          rw [← calls]
          exact List.mem_map_of_mem member
        obtain ⟨call, _, same⟩ := List.mem_map.mp inCalls
        exact (congrArg Prod.snd same).symm
      · have count := congrArg List.length calls
        rw [List.length_map, List.length_map, length_inlinedCalls] at count
        exact count

theorem isCleanFile_frames (view : DebugView) (name : String) (unit : Option OwnedUnit)
    (address : UInt64) : ∀ frame ∈ view.frames name unit address, IsCleanFile frame.file := by
  cases unit with
  | none =>
      intro frame member
      cases List.mem_singleton.mp member
      exact .inl rfl
  | some owned => exact view.isCleanFile_inlineFrames _ _ (isCleanFile_ofSource _)

theorem locates_location (view : DebugView) (module : ModuleHandle) (info : ModuleInfo)
    (unit : Option OwnedUnit) (address : UInt64) :
    view.Locates module unit address (view.location module info unit address) := by
  let symbol := (view.nearestSymbol module address).getD ⟨unknownText, 0⟩
  have name : symbol.name =
      ((view.nearestSymbol module address).map (·.name)).getD unknownText := by
    cases found : view.nearestSymbol module address <;> simp [symbol, found]
  have offset : symbol.offset = ((view.nearestSymbol module address).map (·.offset)).getD 0 := by
    cases found : view.nearestSymbol module address <;> simp [symbol, found]
  obtain ⟨inlined, last, split, areInlined, outermost, named, count⟩ :=
    view.frames_split symbol.name unit address
  refine ⟨⟨inlined, last, split, areInlined, outermost, named.trans name⟩, offset, ?_, ?_⟩
  · change (view.frames symbol.name unit address).length = _
    rw [split, List.length_append, count, List.length_singleton, Nat.add_comm]
  · exact view.isCleanFile_frames symbol.name unit address

end DebugView

theorem ImageSession.informed (session : ImageSession) : session.view.Informed := by
  intro address module found
  obtain ⟨entry, last, rfl⟩ := Option.map_eq_some_iff.mp found
  have registered : (session.modules.find? (·.handle == entry.handle)).isSome := by
    rw [List.find?_isSome]
    exact ⟨entry, (mem_of_lastUpTo? last).1, beq_self_eq_true _⟩
  simpa [view, image?] using registered

theorem InMemorySession.informed (session : InMemorySession) : session.view.Informed := by
  intro address module found
  obtain ⟨entry, first, rfl⟩ := Option.map_eq_some_iff.mp found
  have member := List.mem_of_find?_eq_some first
  obtain ⟨⟨known, index⟩, inside, rfl⟩ := List.mem_map.mp member
  have present : session.modules[index]? = some known := List.mem_zipIdx_iff_getElem?.mp inside
  simp [view, module?, present]

namespace Symbolizer

variable {Session : Type} [DebugSession Session]

/-- What an address gets: nothing where no module is, and otherwise as many frames as the unit that
is chosen has inlined calls at the address, and one more. -/
structure Answers (symbolizer : Symbolizer Session) (address : UInt64) : Prop where
  unresolved_iff : (symbolizer.resolve address).1 = .unresolved ↔
    symbolizer.state ≠ .ready ∨ symbolizer.view.moduleAt address = none
  informed : ∀ module, symbolizer.view.moduleAt address = some module →
    (symbolizer.view.moduleInfo module).isSome
  unit_eq : ∀ module,
    (symbolizer.findUnit module address).1 = symbolizer.view.searchUnit module address
  located : ∀ module, symbolizer.state = .ready →
    symbolizer.view.moduleAt address = some module →
      symbolizer.view.Locates module (symbolizer.findUnit module address).1 address
        (symbolizer.resolve address).1

theorem resolve_of_known {symbolizer : Symbolizer Session} (ready : symbolizer.state = .ready)
    {address : UInt64} {module : ModuleHandle} {info : ModuleInfo}
    (found : symbolizer.view.moduleAt address = some module)
    (known : symbolizer.view.moduleInfo module = some info) :
    (symbolizer.resolve address).1 =
      symbolizer.view.location module info (symbolizer.findUnit module address).1 address := by
  simp [resolve, ready, found, known]

theorem exists_location {symbolizer : Symbolizer Session} (informed : symbolizer.view.Informed)
    (ready : symbolizer.state = .ready) {address : UInt64} {module : ModuleHandle}
    (found : symbolizer.view.moduleAt address = some module) :
    ∃ info, (symbolizer.resolve address).1 =
      symbolizer.view.location module info (symbolizer.findUnit module address).1 address := by
  obtain ⟨info, known⟩ := Option.isSome_iff_exists.mp (informed address module found)
  exact ⟨info, resolve_of_known ready found known⟩

theorem answers {symbolizer : Symbolizer Session} (faithful : symbolizer.Faithful)
    (informed : symbolizer.view.Informed) (address : UInt64) : symbolizer.Answers address := by
  have located : ∀ module, symbolizer.state = .ready →
      symbolizer.view.moduleAt address = some module →
        symbolizer.view.Locates module (symbolizer.findUnit module address).1 address
          (symbolizer.resolve address).1 := by
    intro module ready found
    obtain ⟨info, same⟩ := exists_location informed ready found
    rw [same]
    exact symbolizer.view.locates_location module info _ address
  refine ⟨?_, informed address, fun module => findUnit_eq faithful module address, located⟩
  constructor
  · intro unresolved
    by_cases ready : symbolizer.state = .ready
    · right
      cases found : symbolizer.view.moduleAt address with
      | none => rfl
      | some module =>
          have count := (located module ready found).count
          rw [unresolved, ResolvedLocation.unresolved, List.length_nil] at count
          omega
    · exact .inl ready
  · rintro (unready | missed)
    · rw [resolve, if_neg unready]
    · rw [resolve_eq_lookup faithful, DebugView.lookup, missed]
      split <;> rfl

end Symbolizer

/-- Over images as over modules given as values, every answer of every run has this shape. -/
theorem answers_of_session :
    (∀ session : ImageSession, session.Reachable → ∀ operations address,
      ((Symbolizer.new session).run operations).Answers address) ∧
    ∀ (session : InMemorySession) (operations : List (Operation InMemorySession)) address,
      ((Symbolizer.new session).run operations).Answers address := by
  constructor
  · intro session reachable operations address
    have sound := (Symbolizer.sound_new reachable).run operations
    exact Symbolizer.answers sound.faithful (ImageSession.informed _) address
  · intro session operations address
    have sound : Symbolizer.Sound ((Symbolizer.new session).run operations) :=
      (Symbolizer.sound_new trivial).run operations
    exact Symbolizer.answers sound.faithful (InMemorySession.informed _) address

/-- One image is registered that has neither symbols nor units. -/
def withBareImage : ImageSession :=
  .run (.new fun _ => .error .notFound)
    [.reportBegin, .reportImage (ImageSession.bareImage "libfoo.so" 0x1000 0x100), .reportEnd]

def keepBareImage : List (Operation ImageSession) :=
  [.beginReport, .report "libfoo.so" 0x1000, .endReport]

theorem answers_withBareImage :
    (∀ address, ((Symbolizer.new withBareImage).run keepBareImage).Answers address) ∧
      (((Symbolizer.new withBareImage).run keepBareImage).resolve 0x1010).1 =
        ⟨"libfoo.so", 0x10, 0, [.named unknownText]⟩ ∧
      (((Symbolizer.new withBareImage).run keepBareImage).resolve 0x2000).1 = .unresolved := by
  have reachable : withBareImage.Reachable := (ImageSession.Reachable.new _).run _
  exact ⟨answers_of_session.1 withBareImage reachable keepBareImage, by cbv, by cbv⟩

end Symbolization
