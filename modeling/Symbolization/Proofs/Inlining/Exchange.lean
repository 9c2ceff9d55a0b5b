import Symbolization.Inlining

/-!
# Frames by exchange of positions

The frames of an address can also be made in place.  One frame runs along from the innermost scope
outward.  At every inlined scope it gives its position to the frame of that scope and takes over the
place of the call, so that in the end it stands for the function around all of them.  This leads to
the same frames: the names of the levels beside their positions, which are shifted by one level.
-/

namespace Symbolization

namespace Frame

/-- Both frames, each with the position of the other one. -/
def exchange (first second : Frame) : Frame × Frame :=
  ({ first with file := second.file, line := second.line, column := second.column },
    { second with file := first.file, line := first.line, column := first.column })

/-- Name, position and kind are all that there is to a frame. -/
theorem eq_of_map_eq {first second : List Frame}
    (positions : first.map position = second.map position)
    (names : first.map (·.name) = second.map (·.name))
    (kinds : first.map (·.isInlined) = second.map (·.isInlined)) : first = second := by
  induction first generalizing second with
  | nil => exact (List.map_eq_nil_iff.mp positions.symm).symm
  | cons frame first induction =>
      cases second with
      | nil => exact absurd positions (by simp)
      | cons other second =>
          simp only [List.map_cons, List.cons.injEq] at positions names kinds
          have same : frame = other := by
            cases frame
            cases other
            simp_all [position]
          rw [same, induction positions.2 names.2 kinds.2]

end Frame

/-- The frame that runs along and the frames behind it. -/
structure FrameExchange where
  running : Frame
  done : List Frame

namespace DebugView

/-- The frame of an inlined scope, still with the place where the routine was called. -/
def callFrame (view : DebugView) (scope : EntryHandle) : Frame where
  name := (view.linkageName scope).getD unknownText
  file := ((view.callSite scope).file.map Path.clean).getD unknownText
  line := (view.callSite scope).line
  column := (view.callSite scope).column
  isInlined := true

def exchangeAt (view : DebugView) (state : FrameExchange) (scope : EntryHandle) : FrameExchange :=
  if view.tag scope = some .inlinedSubroutine then
    let (frame, running) := (view.callFrame scope).exchange state.running
    ⟨running, state.done ++ [frame]⟩
  else state

/-- The frames at an on-disk address of a unit, made in place. -/
def exchangedFrames (view : DebugView) (unit : UnitHandle) (offset : UInt64) (outer : Frame) :
    List Frame :=
  let scopes := view.scopes unit offset
  if scopes = [] then [outer]
  else
    let last := scopes.foldl view.exchangeAt ⟨outer, []⟩
    last.done ++ [{ last.running with isInlined := false }]

/-- The inlined scopes around an on-disk address, innermost first. -/
def inlinedScopes (view : DebugView) (unit : UnitHandle) (offset : UInt64) : List EntryHandle :=
  (view.scopes unit offset).filter fun scope => view.tag scope == some .inlinedSubroutine

/-- The frames have the names of the inlined scopes and, at the end, the one of the function.  Their
positions are the one of the address and then the places of the calls. -/
structure ShiftsCallSites (view : DebugView) (unit : UnitHandle) (offset : UInt64) (outer : Frame)
    (frames : List Frame) : Prop where
  positions : frames.map Frame.position =
    outer.position :: (view.inlinedScopes unit offset).map fun scope =>
      (view.callFrame scope).position
  names : frames.map (·.name) =
    (view.inlinedScopes unit offset).map (fun scope => (view.callFrame scope).name) ++ [outer.name]
  kinds : frames.map (·.isInlined) =
    (view.inlinedScopes unit offset).map (fun _ => true) ++
      [outer.isInlined && (view.scopes unit offset).isEmpty]

variable {view : DebugView} {unit : UnitHandle} {offset : UInt64} {outer : Frame}

theorem inlinedCalls_eq_map :
    view.inlinedCalls unit offset = (view.inlinedScopes unit offset).map view.inlinedCall :=
  rfl

theorem exchangeAt_of_inlined {scope : EntryHandle}
    (inlined : view.tag scope = some .inlinedSubroutine) (state : FrameExchange) :
    (view.exchangeAt state scope).running =
        .placed state.running.name (view.inlinedCall scope).site state.running.isInlined ∧
      (view.exchangeAt state scope).done =
        state.done ++ [.placed (view.inlinedCall scope).name state.running.position true] := by
  rw [exchangeAt, if_pos inlined]
  exact ⟨rfl, rfl⟩

/-- What is done already and what the running frame and the rest of the scopes come to. -/
theorem done_foldl_exchangeAt (state : FrameExchange) (scopes : List EntryHandle) :
    (scopes.foldl view.exchangeAt state).done ++
        [{ (scopes.foldl view.exchangeAt state).running with isInlined := false }] =
      state.done ++ InlinedCall.frames state.running.name state.running.position
        ((scopes.filter fun scope => view.tag scope == some .inlinedSubroutine).map
          view.inlinedCall) := by
  induction scopes generalizing state with
  | nil => rfl
  | cons scope scopes induction =>
      rw [List.foldl_cons, induction, List.filter_cons]
      by_cases inlined : view.tag scope = some .inlinedSubroutine
      · obtain ⟨running, done⟩ := exchangeAt_of_inlined inlined state
        rw [if_pos (beq_iff_eq.mpr inlined), List.map_cons, InlinedCall.frames, running, done,
          List.append_assoc]
        rfl
      · rw [if_neg (mt beq_iff_eq.mp inlined), exchangeAt, if_neg inlined]

theorem exchangedFrames_eq_inlineFrames (view : DebugView) (unit : UnitHandle) (offset : UInt64)
    (outer : Frame) :
    view.exchangedFrames unit offset outer = view.inlineFrames unit offset outer := by
  rw [exchangedFrames, inlineFrames]
  by_cases none : view.scopes unit offset = []
  · rw [if_pos none, if_pos (List.isEmpty_iff.mpr none)]
  · rw [if_neg none, if_neg (mt List.isEmpty_iff.mp none)]
    exact done_foldl_exchangeAt ⟨outer, []⟩ (view.scopes unit offset)

end DebugView

namespace InlinedCall

/-- Each call has its name, and the position that the call before it left. -/
theorem map_frames (outerName : String) (position : FramePosition) (calls : List InlinedCall) :
    (frames outerName position calls).map Frame.position = position :: calls.map (·.site) ∧
      (frames outerName position calls).map (·.name) = calls.map (·.name) ++ [outerName] ∧
      (frames outerName position calls).map (·.isInlined) =
        calls.map (fun _ => true) ++ [false] := by
  induction calls generalizing position with
  | nil => exact ⟨rfl, rfl, rfl⟩
  | cons call calls induction =>
      obtain ⟨positions, names, kinds⟩ := induction call.site
      refine ⟨?_, ?_, ?_⟩
      · rw [frames, List.map_cons, positions]
        rfl
      · rw [frames, List.map_cons, names]
        rfl
      · rw [frames, List.map_cons, kinds]
        rfl

end InlinedCall

namespace DebugView

theorem shiftsCallSites_inlineFrames (view : DebugView) (unit : UnitHandle) (offset : UInt64)
    (outer : Frame) :
    view.ShiftsCallSites unit offset outer (view.inlineFrames unit offset outer) := by
  rw [inlineFrames]
  by_cases noScope : (view.scopes unit offset).isEmpty
  · have noCall : view.inlinedScopes unit offset = [] := by
      rw [inlinedScopes, List.isEmpty_iff.mp noScope, List.filter_nil]
    rw [if_pos noScope]
    exact ⟨by simp [noCall], by simp [noCall], by simp [noCall, noScope]⟩
  · obtain ⟨positions, names, kinds⟩ :=
      InlinedCall.map_frames outer.name outer.position (view.inlinedCalls unit offset)
    rw [inlinedCalls_eq_map, List.map_map] at positions names kinds
    rw [if_neg noScope]
    refine ⟨positions, names, ?_⟩
    rw [Bool.eq_false_iff.mpr noScope, Bool.and_false]
    exact kinds

/-- The frames are those that the exchange of positions gives, which are the only ones in which
every position is shifted by one level against the names. -/
theorem inlineFrames_eq_exchangedFrames (view : DebugView) (unit : UnitHandle) (offset : UInt64)
    (outer : Frame) :
    view.inlineFrames unit offset outer = view.exchangedFrames unit offset outer ∧
      ∀ frames, view.ShiftsCallSites unit offset outer frames ↔
        frames = view.inlineFrames unit offset outer := by
  refine ⟨(view.exchangedFrames_eq_inlineFrames unit offset outer).symm, ?_⟩
  have shifted := view.shiftsCallSites_inlineFrames unit offset outer
  intro frames
  constructor
  · intro other
    exact Frame.eq_of_map_eq (other.positions.trans shifted.positions.symm)
      (other.names.trans shifted.names.symm) (other.kinds.trans shifted.kinds.symm)
  · rintro rfl
    exact shifted

end DebugView

end Symbolization
