import Symbolization.Proofs.Session.PathBatch
import Symbolization.Proofs.Session.SameImage
import Symbolization.Proofs.Session.Unrepeated

/-!
# The order of reports

Batches that name the same paths differ in the handles that they give out and in what they read
first.  As long as no two of their images start at one address, none of this shows in an answer.
But a session knows its images by what is told of their paths.  Of paths that are told alike only the
first one is read, and a path that is spelled in another way is told in another way.
-/

namespace Symbolization

namespace Symbolizer

/-- A complete batch of paths with load addresses. -/
def batch (origins : List (FilePath × UInt64)) : List (Operation ImageSession) :=
  .beginReport :: origins.map (fun origin => .report origin.1 origin.2) ++ [.endReport]

open ImageSession (pathReports ToldApart)

variable {symbolizer : Symbolizer ImageSession}

/-- The reports of an open batch go to the session one by one. -/
theorem run_reports (reporting : symbolizer.state = .reporting)
    (origins : List (FilePath × UInt64)) :
    symbolizer.run (origins.map fun origin => .report origin.1 origin.2) =
      { symbolizer with session := symbolizer.session.run (pathReports origins) } := by
  induction origins generalizing symbolizer with
  | nil => rfl
  | cons origin origins induction =>
      have next : symbolizer.perform (.report origin.1 origin.2) =
          { symbolizer with
            session := symbolizer.session.perform (.reportModule origin.1 origin.2) } := by
        rw [perform, report_snd, if_pos reporting]
        rfl
      have reportingNext : (symbolizer.perform (.report origin.1 origin.2)).state = .reporting := by
        rw [next]
        exact reporting
      refine (induction reportingNext).trans ?_
      rw [next]
      rfl

theorem run_batch (symbolizer : Symbolizer ImageSession) (origins : List (FilePath × UInt64)) :
    (symbolizer.run (batch origins)).state = .ready ∧
      (symbolizer.run (batch origins)).session =
        (symbolizer.session.reportBegin.run (pathReports origins)).reportEnd.2 := by
  have begun : symbolizer.run (batch origins) =
      (symbolizer.beginReport.2.run
        (origins.map fun origin => .report origin.1 origin.2)).endReport.2 :=
    run_append symbolizer (.beginReport :: origins.map fun origin => .report origin.1 origin.2) _
  have reporting : symbolizer.beginReport.2.state = .reporting := rfl
  rw [begun, run_reports reporting, endReport_snd, if_pos reporting]
  exact ⟨rfl, rfl⟩

/-- From every state of a symbolizer, batches of the same paths lead to the same answers, however
the paths are ordered and repeated, unless two of the paths are told alike or some of the registered
images start at one address. -/
theorem resolve_eq_of_origins {session : ImageSession} (reachable : session.Reachable)
    (operations : List (Operation ImageSession)) {first second : List (FilePath × UInt64)}
    (same : ∀ origin, origin ∈ first ↔ origin ∈ second) (apart : ToldApart first)
    (distinct : ((((new session).run operations).run (batch first)).session.modules.map
      (·.start)).Nodup) (address : UInt64) :
    ((((new session).run operations).run (batch first)).resolve address).1 =
      ((((new session).run operations).run (batch second)).resolve address).1 := by
  have sound : ((new session).run operations).Sound := (sound_new reachable).run operations
  generalize (new session).run operations = symbolizer at sound distinct
  have orderly : symbolizer.session.Orderly := ImageSession.Reachable.orderly sound.legal
  have leftSound := sound.run (batch first)
  have rightSound := sound.run (batch second)
  have leftOrderly := ImageSession.Reachable.orderly leftSound.legal
  have rightOrderly := ImageSession.Reachable.orderly rightSound.legal
  obtain ⟨leftReady, leftSession⟩ := symbolizer.run_batch first
  obtain ⟨rightReady, rightSession⟩ := symbolizer.run_batch second
  have perm : ((symbolizer.run (batch first)).session.modules.map (·.image)).Perm
      ((symbolizer.run (batch second)).session.modules.map (·.image)) := by
    rw [leftSession, rightSession]
    have apartToo : ToldApart second := apart.of_subset fun origin => (same origin).mpr
    exact ((ImageSession.Collects.reportBegin orderly).run apart).perm_images
      ((ImageSession.Collects.reportBegin orderly).run apartToo) same
  have images := ImageSession.images_eq_of_perm leftOrderly rightOrderly perm distinct
  rw [resolve_eq_lookup leftSound.faithful, resolve_eq_lookup rightSound.faithful, if_pos leftReady,
    if_pos rightReady]
  exact (ImageSession.lookup_congr leftOrderly rightOrderly images address).symm

def withSegmentFile : Symbolizer ImageSession :=
  (new (.new ImageSession.segmentFiles)).run (batch [("libfoo.so", 0x400000)])

def pathsInOrder : List (FilePath × UInt64) :=
  [("libbar.so", 0x200000), ("libfoo.so", 0x400000), ("libbaz.so", 0x800000), ("libgone.so", 0)]

def pathsRepeated : List (FilePath × UInt64) :=
  [("libbaz.so", 0x800000), ("libgone.so", 0), ("libbar.so", 0x200000), ("libgone.so", 0),
    ("libfoo.so", 0x400000), ("libbaz.so", 0x800000)]

/-- The new images change their handles, and the answers stay. -/
theorem resolve_eq_pathsRepeated :
    (∀ address, ((withSegmentFile.run (batch pathsInOrder)).resolve address).1 =
      ((withSegmentFile.run (batch pathsRepeated)).resolve address).1) ∧
      (withSegmentFile.run (batch pathsInOrder)).session.modules.map (·.handle) =
        [⟨2⟩, ⟨1⟩, ⟨3⟩] ∧
      (withSegmentFile.run (batch pathsRepeated)).session.modules.map (·.handle) =
        [⟨3⟩, ⟨1⟩, ⟨2⟩] := by
  refine ⟨?_, by cbv, by cbv⟩
  have same : ∀ origin, origin ∈ pathsInOrder ↔ origin ∈ pathsRepeated := by
    intro origin
    simp only [pathsInOrder, pathsRepeated, List.mem_cons, List.not_mem_nil, or_false]
    tauto
  have apart : ToldApart pathsInOrder :=
    ImageSession.toldApart_of_texts [("libbar.so", 0x200000), ("libfoo.so", 0x400000),
      ("libbaz.so", 0x800000), ("libgone.so", 0)]
  have starts : (withSegmentFile.run (batch pathsInOrder)).session.modules.map (·.start) =
      [0x201000, 0x401000, 0x801000] := by
    cbv
  intro address
  apply resolve_eq_of_origins (.new ImageSession.segmentFiles) (batch [("libfoo.so", 0x400000)])
    same apart
  rw [show ((new (.new ImageSession.segmentFiles)).run (batch [("libfoo.so", 0x400000)])) =
    withSegmentFile from rfl, starts]
  decide

def laterSegmentFile : ByteArray := ImageSession.segmentFile.set! 61 0x20

def firstToldAlike : FilePath := .illFormed [0xff] (by cbv)

def secondToldAlike : FilePath := .illFormed [0xfe] (by cbv)

/-- Two files, of which the second one has its segment a page later. -/
def filesToldAlike : FileSource := fun path =>
  if path = firstToldAlike then .ok ImageSession.segmentFile else .ok laterSegmentFile

def pathsToldAlike : List (FilePath × UInt64) := [(firstToldAlike, 0), (secondToldAlike, 0)]

/-- The first batch of a symbolizer. -/
def reported (files : FileSource) (origins : List (FilePath × UInt64)) :
    Symbolizer ImageSession :=
  (new (.new files)).run (batch origins)

theorem nodup_of_map_eq_singleton {symbolizer : Symbolizer ImageSession} {start : UInt64}
    (single : symbolizer.session.modules.map (·.start) = [start]) :
    (symbolizer.session.modules.map (·.start)).Nodup := by
  rw [single]
  exact List.nodup_singleton start

theorem starts_toldAlike :
    (reported filesToldAlike pathsToldAlike).session.modules.map (·.start) = [0x1000] ∧
      (reported filesToldAlike pathsToldAlike.reverse).session.modules.map (·.start) = [0x2000] :=
  ⟨by cbv, by cbv⟩

theorem moduleName_toldAlike :
    ((reported filesToldAlike pathsToldAlike).resolve 0x1000).1.moduleName = "\uFFFD" ∧
      ((reported filesToldAlike pathsToldAlike.reverse).resolve 0x1000).1.moduleName = "" :=
  ⟨by cbv, by cbv⟩

theorem starts_spelled :
    (reported ImageSession.segmentFiles
        [("./libfoo.so", 0)]).session.modules.map (·.start) = [0x1000] ∧
      (reported ImageSession.segmentFiles
        [(".//libfoo.so", 0)]).session.modules.map (·.start) = [0x1000] :=
  ⟨by cbv, by cbv⟩

theorem moduleName_spelled :
    ((reported ImageSession.segmentFiles [("./libfoo.so", 0)]).resolve 0x1000).1.moduleName =
        "./libfoo.so" ∧
      ((reported ImageSession.segmentFiles [(".//libfoo.so", 0)]).resolve 0x1000).1.moduleName =
        ".//libfoo.so" :=
  ⟨by cbv, by cbv⟩

theorem components_spelled : Path.components "./libfoo.so" = Path.components ".//libfoo.so" := by
  decide +kernel

/-- From every state, batches that are the same answer the same, as long as no two images that they
register start at one address. -/
def AnswersSame (same : List (FilePath × UInt64) → List (FilePath × UInt64) → Prop) : Prop :=
  ∀ (session : ImageSession), session.Reachable →
    ∀ (operations : List (Operation ImageSession)) (first second : List (FilePath × UInt64)),
      same first second →
      ((((new session).run operations).run (batch first)).session.modules.map (·.start)).Nodup →
      ((((new session).run operations).run (batch second)).session.modules.map (·.start)).Nodup →
      ∀ address, ((((new session).run operations).run (batch first)).resolve address).1 =
        ((((new session).run operations).run (batch second)).resolve address).1

/-- It takes both that paths are told apart and that they are spelled alike.  Two paths that are told
alike answer by the one that is reported first, and two spellings of a path with the same components
by their own names. -/
theorem resolve_ne_of_told :
    ¬ AnswersSame (fun first second => ∀ origin, origin ∈ first ↔ origin ∈ second) ∧
    ¬ AnswersSame (fun first second => ∃ one other : List (String × UInt64),
      first = one.map (fun origin => (.text origin.1, origin.2)) ∧
      second = other.map (fun origin => (.text origin.1, origin.2)) ∧
      ∀ path loadAddress, (∃ origin ∈ one, Path.same path origin.1 ∧ origin.2 = loadAddress) ↔
        ∃ origin ∈ other, Path.same path origin.1 ∧ origin.2 = loadAddress) := by
  constructor
  · intro alike
    have answers := congrArg ResolvedLocation.moduleName
      (alike _ (.new filesToldAlike) [] pathsToldAlike pathsToldAlike.reverse
        (fun _ => List.mem_reverse.symm) (nodup_of_map_eq_singleton starts_toldAlike.1)
        (nodup_of_map_eq_singleton starts_toldAlike.2) 0x1000)
    have different : "\uFFFD" = "" :=
      (moduleName_toldAlike.1.symm.trans answers).trans moduleName_toldAlike.2
    contradiction
  · intro alike
    have same : ∀ path (loadAddress : UInt64),
        (∃ origin ∈ [("./libfoo.so", (0 : UInt64))],
          Path.same path origin.1 ∧ origin.2 = loadAddress) ↔
        ∃ origin ∈ [(".//libfoo.so", (0 : UInt64))],
          Path.same path origin.1 ∧ origin.2 = loadAddress := by
      intro path loadAddress
      simp only [List.mem_singleton, exists_eq_left, Path.same, components_spelled]
    have answers := congrArg ResolvedLocation.moduleName
      (alike _ (.new ImageSession.segmentFiles) [] _ _
        ⟨[("./libfoo.so", 0)], [(".//libfoo.so", 0)], rfl, rfl, same⟩
        (nodup_of_map_eq_singleton starts_spelled.1)
        (nodup_of_map_eq_singleton starts_spelled.2) 0x1000)
    have different : "./libfoo.so" = ".//libfoo.so" :=
      (moduleName_spelled.1.symm.trans answers).trans moduleName_spelled.2
    contradiction

end Symbolizer

end Symbolization
