import Symbolization.Proofs.Index.Transparency
import Symbolization.Proofs.Symbolizer.BuildNotes
import Symbolization.Proofs.Symbolizer.Retirement

/-!
# When indexes are built

An index is built when a question needs it for the first time.  In no run is the index of a module
built twice: it is dropped only with its module, and under a handle that was left out no module ever
comes back.  Modules given as values are never left out for good, so there the indexes that are kept
are just those that were built.
-/

namespace Symbolization

namespace IndexCache

variable {cache : IndexCache} {module other : ModuleHandle}

theorem contains_iff : cache.contains module ↔ module ∈ cache.entries.map (·.1) := by
  simp [contains, get?]

theorem contains_ensure (view : DebugView) :
    (cache.ensure view module).contains other ↔ cache.contains other ∨ other = module := by
  rw [contains_iff, contains_iff, ensure]
  split
  case isTrue kept =>
    constructor
    · exact .inl
    · rintro (kept | rfl)
      · exact kept
      · exact contains_iff.mp ‹_›
  case isFalse => simp

theorem contains_retain {keep : ModuleHandle → Bool} :
    (cache.retain keep).contains module ↔ cache.contains module ∧ keep module := by
  simp only [contains_iff, retain, List.mem_map, List.mem_filter]
  constructor
  · rintro ⟨entry, ⟨member, kept⟩, rfl⟩
    exact ⟨⟨entry, member, rfl⟩, kept⟩
  · rintro ⟨⟨entry, member, rfl⟩, kept⟩
    exact ⟨entry, ⟨member, kept⟩, rfl⟩

theorem Faithful.known_of_contains {view : DebugView} (faithful : cache.Faithful view)
    (kept : cache.contains module) : (view.moduleInfo module).isSome := by
  obtain ⟨entry, member, rfl⟩ := List.mem_map.mp (contains_iff.mp kept)
  exact faithful.known entry member

end IndexCache

namespace Symbolizer

section

variable {Session : Type} [DebugSession Session] [Surroundings Session]

/-- The operation asks for an address of the module that the module's table assigns to no unit. -/
def Misses (symbolizer : Symbolizer Session) (operation : Operation Session)
    (module : ModuleHandle) : Prop :=
  ∃ address, operation = .resolve address ∧ symbolizer.state = .ready ∧
    symbolizer.view.moduleAt address = some module ∧
    symbolizer.view.unitAt module address = none

/-- What the notes of a run tell about the symbolizer after it. -/
structure Account (symbolizer : Symbolizer Session) (log : List ModuleHandle) : Prop where
  once : log.Nodup
  noted : ∀ module, symbolizer.indexes.contains module → module ∈ log
  kept : ∀ module ∈ log, symbolizer.indexes.contains module ∨ symbolizer.Lost module

theorem account_new (session : Session) : (new session).Account [] :=
  ⟨List.nodup_nil, nofun, nofun⟩

namespace Account

variable {symbolizer : Symbolizer Session} {log : List ModuleHandle} {module : ModuleHandle}

/-- Of a module that is known there is an index just if one was built. -/
theorem contains_iff (account : symbolizer.Account log)
    (known : (symbolizer.view.moduleInfo module).isSome) :
    symbolizer.indexes.contains module ↔ module ∈ log := by
  constructor
  · exact account.noted module
  · intro built
    rcases account.kept module built with kept | lost
    · exact kept
    · exact absurd known (Option.not_isSome_iff_eq_none.mpr (lost []))

theorem keep (account : symbolizer.Account log) (operation : Operation Session)
    (same : (symbolizer.perform operation).indexes = symbolizer.indexes) :
    (symbolizer.perform operation).Account log := by
  refine ⟨account.once, ?_, ?_⟩
  · rw [same]
    exact account.noted
  · intro module built
    rw [same]
    exact (account.kept module built).imp_right fun lost => lost.perform operation

theorem add (account : symbolizer.Account log) (operation : Operation Session)
    (fresh : module ∉ log)
    (added : (symbolizer.perform operation).indexes =
      symbolizer.indexes.ensure symbolizer.view module) :
    (symbolizer.perform operation).Account (log ++ [module]) := by
  refine ⟨account.once.append (List.nodup_singleton module) (by simpa using fresh), ?_, ?_⟩
  · intro other kept
    rw [added, IndexCache.contains_ensure] at kept
    rw [List.mem_append, List.mem_singleton]
    exact kept.imp_left (account.noted other)
  · intro other built
    rw [added, IndexCache.contains_ensure]
    rw [List.mem_append, List.mem_singleton] at built
    rcases built with earlier | now
    · rcases account.kept other earlier with kept | lost
      · exact .inl (.inl kept)
      · exact .inr (lost.perform operation)
    · exact .inl (.inr now)

theorem resolve (account : symbolizer.Account log) (address : UInt64) :
    (symbolizer.perform (.resolve address)).Account
      (log ++ symbolizer.builds [.resolve address]) := by
  by_cases needed : ∃ module, symbolizer.NeedsIndex address module
  · obtain ⟨module, needs⟩ := needed
    have next : (symbolizer.perform (.resolve address)).indexes =
        symbolizer.indexes.ensure symbolizer.view module := by
      rw [Symbolizer.perform, needs.next]
      rfl
    rw [builds_of_needsIndex needs]
    split
    case isTrue kept =>
      rw [List.append_nil]
      exact account.keep _ (next.trans (if_pos kept))
    case isFalse absent =>
      have fresh : module ∉ log := mt (account.contains_iff needs.known).mpr absent
      exact account.add _ fresh next
  · have same : symbolizer.perform (.resolve address) = symbolizer :=
      (symbolizer.resolve_next address).resolve_right needed
    rw [builds_of_not_needsIndex (not_exists.mp needed), List.append_nil]
    exact account.keep _ (congrArg Symbolizer.indexes same)

end Account

end

variable {Session : Type} [DebugSession Session] [Surroundings Session] [LawfulSession Session]
  {symbolizer : Symbolizer Session} {log : List ModuleHandle} {module : ModuleHandle}

/-- What every operation keeps, of the symbolizer and its notes, is kept by every run. -/
theorem builds_induction {holds : Symbolizer Session → List ModuleHandle → Prop}
    (step : ∀ (symbolizer : Symbolizer Session) (log : List ModuleHandle)
      (operation : Operation Session), symbolizer.Sound → holds symbolizer log →
      holds (symbolizer.perform operation) (log ++ symbolizer.builds [operation]))
    (sound : symbolizer.Sound) (start : holds symbolizer log)
    (operations : List (Operation Session)) :
    holds (symbolizer.run operations) (log ++ symbolizer.builds operations) := by
  induction operations generalizing symbolizer log with
  | nil =>
    rw [show symbolizer.builds [] = [] from rfl, List.append_nil]
    exact start
  | cons operation operations induction =>
    have next := induction (sound.perform operation) (step symbolizer log operation sound start)
    rw [List.append_assoc, ← builds_cons] at next
    exact next

/-- The index of a module is kept over the end of a batch just if the module is. -/
theorem contains_endReport (sound : symbolizer.Sound) :
    symbolizer.endReport.2.indexes.contains module ↔
      symbolizer.indexes.contains module ∧
        (symbolizer.endReport.2.view.moduleInfo module).isSome := by
  rw [endReport_snd]
  split
  · exact IndexCache.contains_retain
  · exact (and_iff_left_of_imp sound.faithful.known_of_contains).symm

variable [RetiresHandles Session]

theorem misses_iff {address : UInt64} :
    symbolizer.Misses (.resolve address) module ↔ symbolizer.NeedsIndex address module := by
  constructor
  · rintro ⟨_, ⟨⟩, ready, found, missed⟩
    exact needsIndex_of_missed ready found (RetiresHandles.known_of_moduleAt found) missed
  · intro needs
    exact ⟨address, rfl, needs.ready, needs.found, needs.missed⟩

namespace Account

theorem endReport (account : symbolizer.Account log) (sound : symbolizer.Sound) :
    (symbolizer.perform .endReport).Account log := by
  refine ⟨account.once, ?_, ?_⟩
  · intro module kept
    exact account.noted module ((contains_endReport sound).mp kept).1
  · intro module built
    rcases account.kept module built with kept | lost
    · have known := sound.faithful.known_of_contains kept
      cases after : symbolizer.endReport.2.view.moduleInfo module with
      | none => exact .inr (RetiresHandles.lost_endReport sound.legal known after)
      | some info => exact .inl ((contains_endReport sound).mpr ⟨kept, by simp [after]⟩)
    · exact .inr (lost.perform .endReport)

theorem perform (account : symbolizer.Account log) (sound : symbolizer.Sound)
    (operation : Operation Session) :
    (symbolizer.perform operation).Account (log ++ symbolizer.builds [operation]) := by
  cases asks : operation.isResolve with
  | true =>
    cases operation with
    | resolve address => exact account.resolve address
    | _ => contradiction
  | false =>
    rw [builds_of_isResolve symbolizer asks, List.append_nil]
    cases operation with
    | endReport => exact account.endReport sound
    | report path loadAddress =>
      refine account.keep _ ?_
      rw [Symbolizer.perform, report_snd]
      split <;> rfl
    | beginReport | surround => exact account.keep _ rfl
    | resolve => contradiction

theorem run (account : symbolizer.Account log) (sound : symbolizer.Sound)
    (operations : List (Operation Session)) :
    (symbolizer.run operations).Account (log ++ symbolizer.builds operations) :=
  builds_induction (fun _ _ operation sound account => account.perform sound operation) sound
    account operations

/-- An operation builds the index of a module just if it misses the first time. -/
theorem grows (account : symbolizer.Account log) (operation : Operation Session) :
    (∃ module, symbolizer.Misses operation module ∧ module ∉ log ∧
        symbolizer.builds [operation] = [module]) ∨
      (∀ module, symbolizer.Misses operation module → module ∈ log) ∧
        symbolizer.builds [operation] = [] := by
  cases asks : operation.isResolve with
  | true =>
    cases operation with
    | resolve address =>
      simp only [misses_iff]
      by_cases needed : ∃ module, symbolizer.NeedsIndex address module
      · obtain ⟨module, needs⟩ := needed
        by_cases built : module ∈ log
        · right
          have kept := (account.contains_iff needs.known).mpr built
          refine ⟨?_, (builds_of_needsIndex needs).trans (if_pos kept)⟩
          intro other needsToo
          cases needs.found.symm.trans needsToo.found
          exact built
        · left
          have absent := mt (account.contains_iff needs.known).mp built
          exact ⟨module, needs, built, (builds_of_needsIndex needs).trans (if_neg absent)⟩
      · right
        have spared := not_exists.mp needed
        exact ⟨fun module needs => absurd needs (spared module), builds_of_not_needsIndex spared⟩
    | _ => contradiction
  | false =>
    right
    refine ⟨?_, builds_of_isResolve symbolizer asks⟩
    rintro module ⟨address, rfl, _⟩
    contradiction

end Account

end Symbolizer

/-- In every run over the session the index of a module is built when a question misses the module's
table for the first time, and never again. -/
structure BuildsOnNeed {Session : Type} [DebugSession Session] [Surroundings Session]
    (session : Session) : Prop where
  /-- Notes change nothing. -/
  run_eq : ∀ operations : List (Operation Session),
    (Symbolizer.new session).runNoting operations =
      ((Symbolizer.new session).run operations).noting
        ((Symbolizer.new session).builds operations)
  grows : ∀ (operations : List (Operation Session)) (operation : Operation Session),
    let symbolizer := (Symbolizer.new session).run operations
    let earlier := (Symbolizer.new session).builds operations
    let later := (Symbolizer.new session).builds (operations ++ [operation])
    (∃ module, symbolizer.Misses operation module ∧ module ∉ earlier ∧
        later = earlier ++ [module]) ∨
      (∀ module, symbolizer.Misses operation module → module ∈ earlier) ∧ later = earlier
  once : ∀ operations : List (Operation Session),
    ((Symbolizer.new session).builds operations).Nodup

theorem RetiresHandles.buildsOnNeed {Session : Type} [DebugSession Session]
    [Surroundings Session] [LawfulSession Session] [RetiresHandles Session] {session : Session}
    (legal : LawfulSession.Legal session) : BuildsOnNeed session := by
  have account (operations : List (Operation Session)) :=
    (Symbolizer.account_new session).run (Symbolizer.sound_new legal) operations
  refine ⟨fun operations => (Symbolizer.new session).run_noting operations [], ?_,
    fun operations => (account operations).once⟩
  intro operations operation symbolizer earlier later
  have longer : later = earlier ++ symbolizer.builds [operation] :=
    Symbolizer.builds_append _ operations [operation]
  rw [longer]
  rcases (account operations).grows operation with
    ⟨module, misses, fresh, built⟩ | ⟨repeated, nothing⟩
  · exact .inl ⟨module, misses, fresh, by rw [built]⟩
  · exact .inr ⟨repeated, by rw [nothing, List.append_nil]⟩

/-! Modules given as values stay known, so all indexes are kept. -/

namespace InMemorySession

theorem enumerations_reportModule (session : InMemorySession) (path : FilePath)
    (loadAddress : UInt64) :
    (session.reportModule path loadAddress).2.enumerations = session.enumerations := by
  unfold reportModule
  split
  · rfl
  · split <;> rfl

theorem enumerations_reportEnd (session : InMemorySession) :
    session.reportEnd.2.enumerations = session.enumerations := by
  unfold reportEnd
  split <;> rfl

end InMemorySession

namespace Symbolizer

/-- Every note stands for an index that is kept and for an enumeration of units. -/
structure Tally (start : Nat) (symbolizer : Symbolizer InMemorySession)
    (log : List ModuleHandle) : Prop where
  kept : symbolizer.indexes.entries.map (·.1) = log
  enumerations : symbolizer.session.enumerations = start + log.length

namespace Tally

variable {start : Nat} {symbolizer : Symbolizer InMemorySession} {log : List ModuleHandle}

theorem keep (tally : Tally start symbolizer log) {next : Symbolizer InMemorySession}
    (indexes : next.indexes = symbolizer.indexes)
    (enumerations : next.session.enumerations = symbolizer.session.enumerations) :
    Tally start next log :=
  ⟨indexes ▸ tally.kept, enumerations.trans tally.enumerations⟩

theorem resolve (tally : Tally start symbolizer log) (address : UInt64) :
    Tally start (symbolizer.resolve address).2.2
      (log ++ symbolizer.builds [.resolve address]) := by
  by_cases needed : ∃ module, symbolizer.NeedsIndex address module
  · obtain ⟨module, needs⟩ := needed
    rw [builds_of_needsIndex needs, needs.next, withIndex, IndexCache.ensure]
    split
    · rw [List.append_nil]
      exact tally
    · refine ⟨?_, ?_⟩
      · rw [List.map_append, tally.kept]
        rfl
      · rw [List.length_append, ← Nat.add_assoc, ← tally.enumerations]
        rfl
  · rw [(symbolizer.resolve_next address).resolve_right needed,
      builds_of_not_needsIndex (not_exists.mp needed), List.append_nil]
    exact tally

theorem retain_eq (sound : symbolizer.Sound) :
    (symbolizer.indexes.retain fun module =>
      (symbolizer.session.reportEnd.2.view.moduleInfo module).isSome) = symbolizer.indexes := by
  rw [IndexCache.retain, List.filter_eq_self.mpr]
  intro entry member
  exact InMemorySession.known_reportEnd (sound.faithful.known entry member)

theorem perform (tally : Tally start symbolizer log) (sound : symbolizer.Sound)
    (operation : Operation InMemorySession) :
    Tally start (symbolizer.perform operation) (log ++ symbolizer.builds [operation]) := by
  cases asks : operation.isResolve with
  | true =>
    cases operation with
    | resolve address => exact tally.resolve address
    | _ => contradiction
  | false =>
    rw [builds_of_isResolve symbolizer asks, List.append_nil]
    cases operation with
    | beginReport => exact tally.keep rfl rfl
    | report path loadAddress =>
      rw [Symbolizer.perform, report_snd]
      split
      · exact tally.keep rfl (InMemorySession.enumerations_reportModule _ path loadAddress)
      · exact tally
    | endReport =>
      rw [Symbolizer.perform, endReport_snd]
      split
      · exact tally.keep (retain_eq sound) (InMemorySession.enumerations_reportEnd _)
      · exact tally
    | resolve => contradiction
    | surround world => exact world.elim

theorem run (tally : Tally start symbolizer log) (sound : symbolizer.Sound)
    (operations : List (Operation InMemorySession)) :
    Tally start (symbolizer.run operations) (log ++ symbolizer.builds operations) :=
  builds_induction (fun _ _ operation sound tally => tally.perform sound operation) sound tally
    operations

end Tally

end Symbolizer

/-- The session counts the indexes that are built, and all of them are kept. -/
structure CountsBuilds (session : InMemorySession) : Prop where
  kept : ∀ operations : List (Operation InMemorySession),
    ((Symbolizer.new session).run operations).indexes.entries.map (·.1) =
      (Symbolizer.new session).builds operations
  enumerations : ∀ operations : List (Operation InMemorySession),
    let symbolizer := (Symbolizer.new session).run operations
    symbolizer.session.enumerations = session.enumerations + symbolizer.indexes.size

theorem countsBuilds (session : InMemorySession) : CountsBuilds session := by
  have start : Symbolizer.Tally session.enumerations (Symbolizer.new session) [] := ⟨rfl, rfl⟩
  have tally (operations : List (Operation InMemorySession)) :=
    start.run (Symbolizer.sound_new trivial) operations
  refine ⟨fun operations => (tally operations).kept, ?_⟩
  intro operations symbolizer
  rw [(tally operations).enumerations, ← (tally operations).kept, List.length_map]
  rfl

/-- Over images as over modules given as values, no index is built without need or twice, and a
session of modules given as values has enumerated units as often as there are indexes. -/
theorem buildsOnNeed_of_session :
    (∀ session : ImageSession, session.Reachable → BuildsOnNeed session) ∧
      ∀ session : InMemorySession, BuildsOnNeed session ∧ CountsBuilds session :=
  ⟨fun _ reachable => RetiresHandles.buildsOnNeed reachable,
    fun session => ⟨RetiresHandles.buildsOnNeed trivial, countsBuilds session⟩⟩

namespace ImageSession

/-- One image without units is registered. -/
def withBareImage : ImageSession :=
  run (.new fun _ => .error .notFound)
    [.reportBegin, .reportImage (bareImage "libfoo.so" 0x1000 0x100), .reportEnd]

end ImageSession

/-- The image stays over a second batch, so its index is built once for three questions. -/
theorem buildsOnNeed_withBareImage :
    BuildsOnNeed ImageSession.withBareImage ∧
      (Symbolizer.new ImageSession.withBareImage).builds
          [.beginReport, .report "libfoo.so" 0x1000, .endReport, .resolve 0x1010, .resolve 0x1020,
            .beginReport, .report "libfoo.so" 0x1000, .endReport, .resolve 0x1010] =
        [⟨1⟩] :=
  ⟨buildsOnNeed_of_session.1 _ ((ImageSession.Reachable.new _).run _), by cbv⟩

end Symbolization
