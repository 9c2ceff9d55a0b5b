import Symbolization.Proofs.Session.Mirror
import Symbolization.Proofs.Session.Registration
import Symbolization.Proofs.Session.Visibility
import Symbolization.Proofs.Symbolizer.Run

/-!
# Kept indexes do not show

An index is built when it is first needed and kept over later batches.  In every run each kept
index is still the one that would be built anew, so no answer depends on what was kept, nor on the
questions that were asked before.
-/

namespace Symbolization

namespace IndexCache

/-- Every kept index is the one that the view gives, and belongs to a module that it knows. -/
structure Faithful (cache : IndexCache) (view : DebugView) : Prop where
  index_eq : ∀ entry ∈ cache.entries, entry.2 = ModuleIndex.build view entry.1
  known : ∀ entry ∈ cache.entries, (view.moduleInfo entry.1).isSome

variable {cache : IndexCache} {view : DebugView}

theorem faithful_empty (view : DebugView) : empty.Faithful view := by
  constructor <;> simp [empty]

theorem Faithful.ensure (faithful : cache.Faithful view) {module : ModuleHandle}
    (known : (view.moduleInfo module).isSome) : (cache.ensure view module).Faithful view := by
  unfold IndexCache.ensure
  split
  · exact faithful
  · constructor
    · intro entry member
      rcases List.mem_append.mp member with earlier | last
      · exact faithful.index_eq entry earlier
      · cases List.mem_singleton.mp last
        rfl
    · intro entry member
      rcases List.mem_append.mp member with earlier | last
      · exact faithful.known entry earlier
      · cases List.mem_singleton.mp last
        exact known

/-- Indexes that are dropped with their modules leave the others right for a later view. -/
theorem Faithful.retain {later : DebugView} (faithful : cache.Faithful view)
    (confined : later.Confined)
    (agree : ∀ {module}, (view.moduleInfo module).isSome → (later.moduleInfo module).isSome →
      DebugView.AgreeOn module view later) :
    (cache.retain fun module => (later.moduleInfo module).isSome).Faithful later := by
  have kept : ∀ entry, entry ∈ (cache.retain fun module => (later.moduleInfo module).isSome).entries →
      entry ∈ cache.entries ∧ (later.moduleInfo entry.1).isSome := by
    intro entry member
    simpa [IndexCache.retain] using member
  constructor
  · intro entry member
    obtain ⟨earlier, still⟩ := kept entry member
    rw [faithful.index_eq entry earlier]
    exact ModuleIndex.build_congr (agree (faithful.known entry earlier) still) confined
  · intro entry member
    exact (kept entry member).2

theorem Faithful.eq_build_of_get? (faithful : cache.Faithful view) {module : ModuleHandle}
    {index : ModuleIndex} (found : cache.get? module = some index) :
    index = ModuleIndex.build view module := by
  obtain ⟨entry, present, rfl⟩ := Option.map_eq_some_iff.mp found
  have named : entry.1 = module := by simpa using List.find?_some present
  rw [faithful.index_eq entry (List.mem_of_find?_eq_some present), named]

theorem Faithful.get?_ensure (faithful : cache.Faithful view) (module : ModuleHandle) :
    (cache.ensure view module).get? module = some (ModuleIndex.build view module) := by
  unfold IndexCache.ensure contains
  cases found : cache.get? module with
  | none =>
      have absent : cache.entries.find? (·.1 == module) = none := by simpa [get?] using found
      simp [get?, List.find?_append, absent]
  | some index =>
      simpa [found] using faithful.eq_build_of_get? found

end IndexCache

/-- The unit that holds an address of a module when nothing is kept. -/
def DebugView.searchUnit (view : DebugView) (module : ModuleHandle) (address : UInt64) :
    Option OwnedUnit :=
  (view.unitAt module address).or ((ModuleIndex.build view module).findUnit address)

/-- What is known about a runtime address when nothing is kept. -/
def DebugView.lookup (view : DebugView) (address : UInt64) : ResolvedLocation :=
  match view.moduleAt address with
  | none => .unresolved
  | some module =>
    match view.moduleInfo module with
    | none => .unresolved
    | some info => view.location module info (view.searchUnit module address) address

namespace Symbolizer

variable {Session : Type} [DebugSession Session]

def Faithful (symbolizer : Symbolizer Session) : Prop :=
  symbolizer.indexes.Faithful symbolizer.view

theorem findUnit_eq {symbolizer : Symbolizer Session} (faithful : symbolizer.Faithful)
    (module : ModuleHandle) (address : UInt64) :
    (symbolizer.findUnit module address).1 = symbolizer.view.searchUnit module address := by
  unfold findUnit DebugView.searchUnit
  cases symbolizer.view.unitAt module address with
  | some owned => rfl
  | none =>
      simp only [IndexCache.ensureFrom_eq, IndexCache.findUnit]
      rw [show DebugSession.view symbolizer.session = symbolizer.view from rfl,
        faithful.get?_ensure module]
      rfl

/-- What a symbolizer answers is a matter of its session and its state alone. -/
theorem resolve_eq_lookup {symbolizer : Symbolizer Session} (faithful : symbolizer.Faithful)
    (address : UInt64) :
    (symbolizer.resolve address).1 =
      if symbolizer.state = .ready then symbolizer.view.lookup address else .unresolved := by
  unfold resolve DebugView.lookup
  split
  · cases symbolizer.view.moduleAt address with
    | none => rfl
    | some module =>
        dsimp only
        cases symbolizer.view.moduleInfo module with
        | none => rfl
        | some info => simp [findUnit_eq faithful]
  · rfl

/-- The symbolizers differ in nothing but their indexes and how often units were enumerated, the
left one more often. -/
def Trails (left right : Symbolizer Session) : Prop :=
  left.state = right.state ∧
    ∃ log : List ModuleHandle, left.session = log.foldl DebugSession.noteEnumeration right.session

namespace Trails

variable {left right : Symbolizer Session}

theorem advance (trails : Trails left right) (change : Session → Session)
    (commutes : ∀ session module, change (DebugSession.noteEnumeration session module) =
      DebugSession.noteEnumeration (change session) module)
    (leftIndexes rightIndexes : IndexCache) (state : ReportState) :
    Trails ⟨change left.session, leftIndexes, state⟩
      ⟨change right.session, rightIndexes, state⟩ := by
  obtain ⟨_, log, same⟩ := trails
  have noted : log.foldl DebugSession.noteEnumeration (change right.session) =
      change (log.foldl DebugSession.noteEnumeration right.session) :=
    List.foldl_hom change fun session module => (commutes session module).symm
  refine ⟨rfl, log, ?_⟩
  rw [noted, ← same]

variable [Surroundings Session]

theorem resolve (trails : Trails left right) (address : UInt64) :
    Trails (left.perform (.resolve address)) right := by
  obtain ⟨stateEq, log, same⟩ := trails
  obtain unchanged | ⟨module, built⟩ := resolve_next left address
  · simp only [Symbolizer.perform, unchanged]
    exact ⟨stateEq, log, same⟩
  · simp only [Symbolizer.perform, built.next, withIndex]
    refine ⟨stateEq, ?_⟩
    split
    · exact ⟨log, same⟩
    · refine ⟨log ++ [module], ?_⟩
      rw [List.foldl_append, ← same]
      rfl

variable [LawfulSession Session]

theorem view_eq (trails : Trails left right) : left.view = right.view := by
  obtain ⟨_, log, same⟩ := trails
  rw [view, view, same, LawfulSession.view_foldl_noteEnumeration]

theorem perform (trails : Trails left right) {operation : Operation Session}
    (reports : operation.isResolve = false) :
    Trails (left.perform operation) (right.perform operation) := by
  have stateEq : left.state = right.state := trails.1
  cases operation with
  | beginReport =>
      exact trails.advance DebugSession.reportBegin LawfulSession.reportBegin_noteEnumeration _ _ _
  | report path loadAddress =>
      simp only [Symbolizer.perform, report_snd, ← stateEq]
      split
      · apply trails.advance fun session => (DebugSession.reportModule session path loadAddress).2
        intro session module
        rw [LawfulSession.reportModule_noteEnumeration]
      · exact trails
  | endReport =>
      simp only [Symbolizer.perform, endReport_snd, ← stateEq]
      split
      · apply trails.advance fun session => (DebugSession.reportEnd session).2
        intro session module
        rw [LawfulSession.reportEnd_noteEnumeration]
      · exact trails
  | resolve address => contradiction
  | surround world =>
      simp only [Symbolizer.perform, ← stateEq]
      apply trails.advance fun session => Surroundings.surround session world
      intro session module
      exact LawfulSession.surround_noteEnumeration session module world

theorem run (trails : Trails left right) (operations : List (Operation Session)) :
    Trails (left.run operations) (right.run (Operation.withoutResolves operations)) := by
  induction operations generalizing left right with
  | nil => exact trails
  | cons operation operations induction =>
      cases asks : operation.isResolve with
      | false =>
          have remaining : Operation.withoutResolves (operation :: operations) =
              operation :: Operation.withoutResolves operations := by
            simp [Operation.withoutResolves, asks]
          rw [remaining]
          exact induction (trails.perform asks)
      | true =>
          have remaining : Operation.withoutResolves (operation :: operations) =
              Operation.withoutResolves operations := by
            simp [Operation.withoutResolves, asks]
          rw [remaining]
          cases operation with
          | resolve address => exact induction (trails.resolve address)
          | _ => contradiction

end Trails

variable [Surroundings Session] [LawfulSession Session]

/-- What every run keeps: the session obeys the laws, and the kept indexes are up to date. -/
structure Sound (symbolizer : Symbolizer Session) : Prop where
  legal : LawfulSession.Legal symbolizer.session
  faithful : symbolizer.Faithful

theorem sound_new {session : Session} (legal : LawfulSession.Legal session) :
    (new session).Sound :=
  ⟨legal, IndexCache.faithful_empty _⟩

namespace Sound

variable {symbolizer : Symbolizer Session}

/-- A change of the session that shows in no answer keeps the symbolizer sound. -/
theorem replaceSession (sound : symbolizer.Sound) {session : Session} (state : ReportState)
    (legal : LawfulSession.Legal session)
    (same : DebugSession.view session = symbolizer.view) :
    Sound { symbolizer with session, state } :=
  ⟨legal, by simpa only [Faithful, view, same] using sound.faithful⟩

theorem endReport (sound : symbolizer.Sound) : symbolizer.endReport.2.Sound := by
  rw [endReport_snd]
  split
  · refine ⟨LawfulSession.legal_reportEnd sound.legal, ?_⟩
    exact sound.faithful.retain (LawfulSession.confined _)
      (LawfulSession.agreeOn_reportEnd sound.legal)
  · exact sound

theorem resolve (sound : symbolizer.Sound) (address : UInt64) :
    (symbolizer.resolve address).2.2.Sound := by
  obtain same | ⟨module, built⟩ := resolve_next symbolizer address
  · rw [same]
    exact sound
  · have shown : (symbolizer.withIndex module).view = symbolizer.view :=
      symbolizer.view_withIndex module
    rw [built.next]
    refine ⟨?_, ?_⟩
    · simp only [withIndex]
      split
      · exact sound.legal
      · exact LawfulSession.legal_noteEnumeration module sound.legal
    · rw [Faithful, shown]
      exact sound.faithful.ensure built.known

theorem perform (sound : symbolizer.Sound) (operation : Operation Session) :
    (symbolizer.perform operation).Sound := by
  cases operation with
  | beginReport =>
      exact sound.replaceSession .reporting (LawfulSession.legal_reportBegin sound.legal)
        (LawfulSession.view_reportBegin _)
  | report path loadAddress =>
      simp only [Symbolizer.perform, report_snd]
      split
      · exact sound.replaceSession _ (LawfulSession.legal_reportModule path loadAddress sound.legal)
          (LawfulSession.view_reportModule _ _ _)
      · exact sound
  | endReport => exact sound.endReport
  | resolve address => exact sound.resolve address
  | surround world =>
      exact sound.replaceSession _ (LawfulSession.legal_surround world sound.legal)
        (LawfulSession.view_surround _ _)

theorem run (sound : symbolizer.Sound) (operations : List (Operation Session)) :
    (symbolizer.run operations).Sound :=
  run_induction (fun _ operation sound => sound.perform operation) sound operations

end Sound

end Symbolizer

/-- In no run of a symbolizer over the session can it be told that indexes are kept. -/
structure HidesIndexes {Session : Type} [DebugSession Session] [Surroundings Session]
    (session : Session) : Prop where
  /-- Every kept index is the one that would be built now. -/
  index_eq : ∀ operations : List (Operation Session),
    let symbolizer := (Symbolizer.new session).run operations
    ∀ entry ∈ symbolizer.indexes.entries, entry.2 = ModuleIndex.build symbolizer.view entry.1
  /-- Every answer is the one that is given when no index is kept. -/
  resolve_forgetful : ∀ (operations : List (Operation Session)) (address : UInt64),
    let symbolizer := (Symbolizer.new session).run operations
    (symbolizer.resolve address).1 =
      (Symbolizer.resolve { symbolizer with indexes := .empty } address).1
  /-- Questions that are put into a run or left out of it change no later answer. -/
  resolve_congr : ∀ first second : List (Operation Session),
    Operation.withoutResolves first = Operation.withoutResolves second → ∀ address : UInt64,
      (((Symbolizer.new session).run first).resolve address).1 =
        (((Symbolizer.new session).run second).resolve address).1

theorem LawfulSession.hidesIndexes {Session : Type} [DebugSession Session]
    [Surroundings Session] [LawfulSession Session] {session : Session}
    (legal : LawfulSession.Legal session) : HidesIndexes session where
  index_eq operations :=
    ((Symbolizer.sound_new legal).run operations).faithful.index_eq
  resolve_forgetful operations address := by
    intro symbolizer
    have sound : symbolizer.Sound := (Symbolizer.sound_new legal).run operations
    have forgetful : Symbolizer.Faithful { symbolizer with indexes := .empty } :=
      IndexCache.faithful_empty _
    rw [Symbolizer.resolve_eq_lookup sound.faithful, Symbolizer.resolve_eq_lookup forgetful]
    rfl
  resolve_congr first second same address := by
    have start : Symbolizer.Trails (Symbolizer.new session) (Symbolizer.new session) :=
      ⟨rfl, [], rfl⟩
    have firstTrails := start.run first
    have secondTrails := start.run second
    rw [← same] at secondTrails
    have stateEq := firstTrails.1.trans secondTrails.1.symm
    have viewEq := firstTrails.view_eq.trans secondTrails.view_eq.symm
    rw [Symbolizer.resolve_eq_lookup ((Symbolizer.sound_new legal).run first).faithful,
      Symbolizer.resolve_eq_lookup ((Symbolizer.sound_new legal).run second).faithful,
      stateEq, viewEq]

/-- Over images as over modules given as values, kept indexes are always up to date and show in no
answer. -/
theorem hidesIndexes_of_session :
    (∀ session : ImageSession, session.Reachable → HidesIndexes session) ∧
      ∀ session : InMemorySession, HidesIndexes session :=
  ⟨fun _ reachable => LawfulSession.hidesIndexes reachable,
    fun _ => LawfulSession.hidesIndexes trivial⟩

theorem hidesIndexes_of_openBatch :
    HidesIndexes (ImageSession.new fun _ => .error .notFound).reportBegin :=
  hidesIndexes_of_session.1 _ (.perform .reportBegin (.new _))

end Symbolization
