import Symbolization.Proofs.Symbolizer.Run

/-!
# Notes of what is built

To build an index takes a walk over all entries of a module, which starts with an enumeration of its
units.  A session that writes down what it enumerates has a log of the indexes that a symbolizer
builds over it.  But for the log it is the session of which it was made.
-/

namespace Symbolization

/-- A session with the modules whose units it has enumerated, the last one at the end. -/
structure NotingSession (Session : Type) where
  session : Session
  log : List ModuleHandle

variable {Session : Type}

instance [DebugSession Session] : DebugSession (NotingSession Session) where
  reportBegin noting := { noting with session := DebugSession.reportBegin noting.session }
  reportModule noting path loadAddress :=
    let (outcome, session) := DebugSession.reportModule noting.session path loadAddress
    (outcome, { noting with session })
  reportEnd noting :=
    let (outcome, session) := DebugSession.reportEnd noting.session
    (outcome, { noting with session })
  view noting := DebugSession.view noting.session
  noteEnumeration noting module :=
    ⟨DebugSession.noteEnumeration noting.session module, noting.log ++ [module]⟩

instance [Surroundings Session] : Surroundings (NotingSession Session) where
  World := Surroundings.World Session
  surround noting world := { noting with session := Surroundings.surround noting.session world }

def Operation.noting [Surroundings Session] :
    Operation Session → Operation (NotingSession Session)
  | .beginReport => .beginReport
  | .report path loadAddress => .report path loadAddress
  | .endReport => .endReport
  | .resolve address => .resolve address
  | .surround world => .surround world

namespace Symbolizer

def noting (symbolizer : Symbolizer Session) (log : List ModuleHandle) :
    Symbolizer (NotingSession Session) :=
  ⟨⟨symbolizer.session, log⟩, symbolizer.indexes, symbolizer.state⟩

variable [DebugSession Session]

section

variable [Surroundings Session]

def runNoting (symbolizer : Symbolizer Session) (operations : List (Operation Session)) :
    Symbolizer (NotingSession Session) :=
  (symbolizer.noting []).run (operations.map Operation.noting)

/-- The modules whose indexes are built in a run. -/
def builds (symbolizer : Symbolizer Session) (operations : List (Operation Session)) :
    List ModuleHandle :=
  (symbolizer.runNoting operations).session.log

end

variable {symbolizer : Symbolizer Session} {address : UInt64} {module : ModuleHandle}

theorem withIndex_noting (symbolizer : Symbolizer Session) (module : ModuleHandle)
    (log : List ModuleHandle) :
    (symbolizer.noting log).withIndex module =
      (symbolizer.withIndex module).noting
        (log ++ if symbolizer.indexes.contains module then [] else [module]) := by
  unfold withIndex noting
  dsimp only
  split
  · rw [List.append_nil]
    rfl
  · rfl

theorem needsIndex_noting_iff {log : List ModuleHandle} :
    (symbolizer.noting log).NeedsIndex address module ↔ symbolizer.NeedsIndex address module := by
  constructor
  · rintro ⟨ready, found, known, missed, _⟩
    exact needsIndex_of_missed ready found known missed
  · rintro ⟨ready, found, known, missed, _⟩
    exact needsIndex_of_missed ready found known missed

variable [Surroundings Session]

theorem perform_noting_of_needsIndex (needs : symbolizer.NeedsIndex address module)
    (log : List ModuleHandle) :
    (symbolizer.noting log).perform (.resolve address) =
      (symbolizer.perform (.resolve address)).noting
        (log ++ if symbolizer.indexes.contains module then [] else [module]) := by
  have needsNoting : (symbolizer.noting log).NeedsIndex address module :=
    needsIndex_noting_iff.mpr needs
  rw [perform, perform, needsNoting.next, needs.next]
  exact symbolizer.withIndex_noting module log

theorem perform_noting_of_not_needsIndex
    (spared : ∀ module, ¬ symbolizer.NeedsIndex address module) (log : List ModuleHandle) :
    (symbolizer.noting log).perform (.resolve address) =
      (symbolizer.perform (.resolve address)).noting log := by
  have same := (symbolizer.resolve_next address).resolve_right (not_exists.mpr spared)
  have sameNoting := ((symbolizer.noting log).resolve_next address).resolve_right
    (not_exists.mpr fun module needs => spared module (needsIndex_noting_iff.mp needs))
  rw [perform, perform, same, sameNoting]

theorem perform_noting_of_isResolve (symbolizer : Symbolizer Session)
    {operation : Operation Session} (reports : operation.isResolve = false)
    (log : List ModuleHandle) :
    (symbolizer.noting log).perform operation.noting =
      (symbolizer.perform operation).noting log := by
  cases operation with
  | beginReport => rfl
  | report path loadAddress =>
      rw [Operation.noting, perform, perform, report_snd, report_snd]
      unfold noting
      dsimp only
      split <;> rfl
  | endReport =>
      rw [Operation.noting, perform, perform, endReport_snd, endReport_snd]
      unfold noting
      dsimp only
      split <;> rfl
  | resolve address => contradiction
  | surround world => rfl

theorem exists_perform_noting (symbolizer : Symbolizer Session) (operation : Operation Session) :
    ∃ notes, ∀ log, (symbolizer.noting log).perform operation.noting =
      (symbolizer.perform operation).noting (log ++ notes) := by
  cases asks : operation.isResolve with
  | true =>
      cases operation with
      | resolve address =>
          by_cases needed : ∃ module, symbolizer.NeedsIndex address module
          · obtain ⟨module, needs⟩ := needed
            exact ⟨_, perform_noting_of_needsIndex needs⟩
          · refine ⟨[], fun log => ?_⟩
            rw [List.append_nil]
            exact perform_noting_of_not_needsIndex (not_exists.mp needed) log
      | _ => contradiction
  | false =>
      refine ⟨[], fun log => ?_⟩
      rw [List.append_nil]
      exact symbolizer.perform_noting_of_isResolve asks log

/-- To take notes changes nothing but the log, which gets longer by what is built. -/
theorem run_noting (symbolizer : Symbolizer Session) (operations : List (Operation Session))
    (log : List ModuleHandle) :
    (symbolizer.noting log).run (operations.map Operation.noting) =
      (symbolizer.run operations).noting (log ++ symbolizer.builds operations) := by
  have noted : ∃ notes, ∀ log, (symbolizer.noting log).run (operations.map Operation.noting) =
      (symbolizer.run operations).noting (log ++ notes) := by
    induction operations generalizing symbolizer with
    | nil => exact ⟨[], fun log => by rw [List.append_nil]; rfl⟩
    | cons operation operations induction =>
        obtain ⟨first, performed⟩ := symbolizer.exists_perform_noting operation
        obtain ⟨later, continued⟩ := induction (symbolizer.perform operation)
        refine ⟨first ++ later, fun log => ?_⟩
        rw [← List.append_assoc]
        refine Eq.trans ?_ (continued (log ++ first))
        rw [← performed log]
        rfl
  obtain ⟨notes, noted⟩ := noted
  have built : symbolizer.builds operations = notes := by
    rw [builds, runNoting, noted []]
    rfl
  rw [built, noted log]

theorem builds_append (symbolizer : Symbolizer Session)
    (first second : List (Operation Session)) :
    symbolizer.builds (first ++ second) =
      symbolizer.builds first ++ (symbolizer.run first).builds second := by
  rw [builds, runNoting, List.map_append, run_append, run_noting, run_noting]
  rfl

theorem builds_cons (symbolizer : Symbolizer Session) (operation : Operation Session)
    (operations : List (Operation Session)) :
    symbolizer.builds (operation :: operations) =
      symbolizer.builds [operation] ++ (symbolizer.perform operation).builds operations :=
  symbolizer.builds_append [operation] operations

theorem builds_of_isResolve (symbolizer : Symbolizer Session) {operation : Operation Session}
    (reports : operation.isResolve = false) : symbolizer.builds [operation] = [] :=
  congrArg (·.session.log) (symbolizer.perform_noting_of_isResolve reports [])

theorem builds_of_needsIndex (needs : symbolizer.NeedsIndex address module) :
    symbolizer.builds [.resolve address] =
      if symbolizer.indexes.contains module then [] else [module] :=
  congrArg (·.session.log) (perform_noting_of_needsIndex needs [])

theorem builds_of_not_needsIndex (spared : ∀ module, ¬ symbolizer.NeedsIndex address module) :
    symbolizer.builds [.resolve address] = [] :=
  congrArg (·.session.log) (perform_noting_of_not_needsIndex spared [])

end Symbolizer

end Symbolization
