import Symbolization.Proofs.Session.Lawful
import Symbolization.Symbolizer

/-!
# Runs of a symbolizer

The operations of a symbolizer in any order and number, whether they succeed or fail, with changes
of what surrounds its session in between.
-/

namespace Symbolization

/-- What can happen to a symbolizer over a session. -/
inductive Operation (Session : Type) [Surroundings Session] where
  | beginReport
  | report (path : FilePath) (loadAddress : UInt64)
  | endReport
  | resolve (address : UInt64)
  | surround (world : Surroundings.World Session)

namespace Operation

variable {Session : Type} [Surroundings Session]

/-- Whether the operation only asks for an address. -/
def isResolve : Operation Session → Bool
  | .resolve _ => true
  | _ => false

def withoutResolves (operations : List (Operation Session)) : List (Operation Session) :=
  operations.filter (!·.isResolve)

end Operation

namespace Symbolizer

variable {Session : Type} [DebugSession Session] [Surroundings Session]

def perform (symbolizer : Symbolizer Session) : Operation Session → Symbolizer Session
  | .beginReport => symbolizer.beginReport.2
  | .report path loadAddress => (symbolizer.report path loadAddress).2
  | .endReport => symbolizer.endReport.2
  | .resolve address => (symbolizer.resolve address).2.2
  | .surround world => { symbolizer with session := Surroundings.surround symbolizer.session world }

def run (symbolizer : Symbolizer Session) (operations : List (Operation Session)) :
    Symbolizer Session :=
  operations.foldl perform symbolizer

theorem run_append (symbolizer : Symbolizer Session) (first second : List (Operation Session)) :
    symbolizer.run (first ++ second) = (symbolizer.run first).run second :=
  List.foldl_append

theorem run_induction {holds : Symbolizer Session → Prop}
    (step : ∀ symbolizer operation, holds symbolizer → holds (symbolizer.perform operation))
    {symbolizer : Symbolizer Session} (start : holds symbolizer)
    (operations : List (Operation Session)) : holds (symbolizer.run operations) := by
  induction operations generalizing symbolizer with
  | nil => exact start
  | cons operation operations induction => exact induction (step symbolizer operation start)

end Symbolizer

/-! What the single operations do. -/

namespace Symbolizer

variable {Session : Type} [DebugSession Session]

theorem report_snd (symbolizer : Symbolizer Session) (path : FilePath) (loadAddress : UInt64) :
    (symbolizer.report path loadAddress).2 =
      if symbolizer.state = .reporting then
        { symbolizer with
          session := (DebugSession.reportModule symbolizer.session path loadAddress).2 }
      else symbolizer := by
  unfold report
  split
  · dsimp only
    split <;> rfl
  · rfl

theorem endReport_snd (symbolizer : Symbolizer Session) :
    symbolizer.endReport.2 =
      if symbolizer.state = .reporting then
        let session := (DebugSession.reportEnd symbolizer.session).2
        ⟨session,
          symbolizer.indexes.retain fun module =>
            ((DebugSession.view session).moduleInfo module).isSome,
          .ready⟩
      else symbolizer := by
  unfold endReport
  split
  · dsimp only
    split <;> rfl
  · rfl

theorem session_endReport (symbolizer : Symbolizer Session) :
    symbolizer.endReport.2.session =
      if symbolizer.state = .reporting then (DebugSession.reportEnd symbolizer.session).2
      else symbolizer.session := by
  rw [endReport_snd]
  split <;> rfl

def withIndex (symbolizer : Symbolizer Session) (module : ModuleHandle) : Symbolizer Session :=
  { symbolizer with
    session :=
      if symbolizer.indexes.contains module then symbolizer.session
      else DebugSession.noteEnumeration symbolizer.session module
    indexes := symbolizer.indexes.ensure symbolizer.view module }

/-- The question for an address needs the index of a module. -/
structure NeedsIndex (symbolizer : Symbolizer Session) (address : UInt64)
    (module : ModuleHandle) : Prop where
  ready : symbolizer.state = .ready
  found : symbolizer.view.moduleAt address = some module
  known : (symbolizer.view.moduleInfo module).isSome
  missed : symbolizer.view.unitAt module address = none
  next : (symbolizer.resolve address).2.2 = symbolizer.withIndex module

theorem needsIndex_of_missed {symbolizer : Symbolizer Session} {address : UInt64}
    {module : ModuleHandle} (ready : symbolizer.state = .ready)
    (found : symbolizer.view.moduleAt address = some module)
    (known : (symbolizer.view.moduleInfo module).isSome)
    (missed : symbolizer.view.unitAt module address = none) :
    symbolizer.NeedsIndex address module := by
  obtain ⟨info, described⟩ := Option.isSome_iff_exists.mp known
  refine ⟨ready, found, known, missed, ?_⟩
  simp only [resolve, ready, if_true, found, described, findUnit, missed, withIndex,
    IndexCache.ensureFrom_eq]
  rfl

/-- A question leaves the symbolizer as it is, unless it needs an index. -/
theorem resolve_next (symbolizer : Symbolizer Session) (address : UInt64) :
    (symbolizer.resolve address).2.2 = symbolizer ∨
      ∃ module, symbolizer.NeedsIndex address module := by
  by_cases ready : symbolizer.state = .ready
  · cases found : symbolizer.view.moduleAt address with
    | none => simp [resolve, ready, found]
    | some module =>
        cases known : symbolizer.view.moduleInfo module with
        | none => simp [resolve, ready, found, known]
        | some info =>
            cases missed : symbolizer.view.unitAt module address with
            | some owned => simp [resolve, ready, found, known, findUnit, missed]
            | none =>
                right
                exact ⟨module, needsIndex_of_missed ready found (by simp [known]) missed⟩
  · simp [resolve, ready]

theorem view_withIndex [Surroundings Session] [LawfulSession Session]
    (symbolizer : Symbolizer Session) (module : ModuleHandle) :
    (symbolizer.withIndex module).view = symbolizer.view := by
  simp only [view, withIndex]
  split
  · rfl
  · exact LawfulSession.view_noteEnumeration _ _

end Symbolizer

end Symbolization
