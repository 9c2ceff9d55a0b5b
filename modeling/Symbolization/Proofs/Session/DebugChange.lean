import Symbolization.Proofs.Elf.Outline
import Symbolization.Proofs.Session.BatchEnd
import Symbolization.Proofs.Session.Requests
import Symbolization.Proofs.Session.Transfer

/-!
# Sessions whose images differ in their debug data

Where a file is, which addresses it holds and what its symbols are is read from other bytes than its
debug data.  Two sessions that read files which differ in debug data only take every report alike,
and their images are the same but for this data.
-/

namespace Symbolization

def Image.withoutDebug (image : Image) : Image := { image with debug := ⟨[], []⟩ }

/-- The sources have a file at the same paths, the one with other debug data than the other. -/
def FileSource.DebugChange (left right : FileSource) : Prop :=
  ∀ path, SameOutcome Elf.DebugChange (left path) (right path)

theorem FileSource.DebugChange.refl (files : FileSource) : files.DebugChange files := by
  intro path
  cases files path with
  | error error => exact .error error
  | ok bytes => exact .ok (.refl bytes)

namespace Image

theorem ofFile_of_reproduces {left right : ByteArray} {file other : Elf.File}
    (reproduces : file.Reproduces left right other) (symbols : other.symbolMap = file.symbolMap)
    (name : String) (bias : UInt64) :
    SameOutcome (fun image changed => changed.withoutDebug = image.withoutDebug)
      (ofFile name bias file) (ofFile name bias other) := by
  have extent : other.extent? = file.extent? := by
    simp only [Elf.File.extent?, Elf.File.segmentStretches, Elf.File.sectionStretches,
      reproduces.segments, reproduces.sections]
  cases loaded : file.extent? with
  | none =>
      simp only [ofFile, extent, loaded]
      exact .error _
  | some interval =>
      simp only [ofFile, extent, loaded]
      refine .ok ?_
      simp only [withoutDebug, symbols]

/-- An image is read from both files, or from neither for the same reason, and is the same but for
its debug data. -/
theorem load_of_debugChange {left right : FileSource} (change : left.DebugChange right)
    (path : FilePath) (bias : UInt64) :
    SameOutcome (fun image changed => changed.withoutDebug = image.withoutDebug)
      (load left path bias) (load right path bias) := by
  obtain ⟨error, here, there⟩ | ⟨bytes, other, here, there, change⟩ := (change path).split
  · simp only [load, here, there]
    exact .error _
  have size := change.sameButDebug.size_eq
  by_cases empty : bytes.size = 0
  · simp only [load, here, there, size, if_pos empty]
    exact .error _
  obtain ⟨error, parsed, otherParsed⟩ | ⟨file, otherFile, parsed, otherParsed, reproduces⟩ :=
    change.sameButDebug.parse.split
  · simp only [load, here, there, size, if_neg empty, parsed, otherParsed]
    exact .error _
  · simp only [load, here, there, size, if_neg empty, parsed, otherParsed]
    have symbols := reproduces.symbolMap (change.symbols file parsed)
    exact ofFile_of_reproduces reproduces symbols path.told bias

end Image

/-- The entry as it is without the debug data of its image. -/
def RegisteredImage.withoutDebug (entry : RegisteredImage) : RegisteredImage :=
  { entry with image := entry.image.withoutDebug }

theorem RegisteredImage.transfers_withoutDebug : Transfers id withoutDebug where
  injective := Function.injective_id
  handle _ := rfl
  isOf _ _ _ := rfl
  start _ := rfl
  has _ _ := rfl

/-- The report as it is without the debug data of its image. -/
def Reported.withoutDebug : Reported → Reported := map id RegisteredImage.withoutDebug

namespace ImageSession

/-- The session without any debug data and without the files that it reads. -/
def withoutDebug (session : ImageSession) : ImageSession where
  files _ := .error .notFound
  modules := session.modules.map (·.withoutDebug)
  batch := session.batch.map (List.map (·.withoutDebug))
  lastHandle := session.lastHandle

section

variable (session : ImageSession)

theorem pending?_withoutDebug (batch : List Reported) (path : FilePath) (loadAddress : UInt64) :
    session.withoutDebug.pending? (batch.map (·.withoutDebug)) path loadAddress =
      session.pending? batch path loadAddress :=
  (RegisteredImage.transfers_withoutDebug.pending?_eq rfl batch path loadAddress).trans
    Option.map_id'

theorem registered?_withoutDebug (path : FilePath) (loadAddress : UInt64) :
    session.withoutDebug.registered? path loadAddress = session.registered? path loadAddress :=
  (RegisteredImage.transfers_withoutDebug.registered?_eq rfl path loadAddress).trans
    Option.map_id'

theorem commit_withoutDebug (batch : List Reported) :
    session.withoutDebug.commit (batch.map (·.withoutDebug)) =
      (session.commit batch).map (·.withoutDebug) :=
  RegisteredImage.transfers_withoutDebug.commit_eq rfl batch

theorem moduleAt_withoutDebug (address : UInt64) :
    session.withoutDebug.moduleAt address = session.moduleAt address :=
  (RegisteredImage.transfers_withoutDebug.moduleAt_eq rfl address).trans Option.map_id'

theorem overlap?_withoutDebug (entries : List RegisteredImage) :
    overlap? (entries.map (·.withoutDebug)) =
      (overlap? entries).map (Prod.map (·.withoutDebug) (·.withoutDebug)) := by
  fun_induction overlap? entries with
  | case1 first second rest overlaps =>
      simp only [List.map_cons, overlap?]
      exact if_pos overlaps
  | case2 first second rest apart induction =>
      rw [← induction]
      simp only [List.map_cons, overlap?]
      exact if_neg apart
  | case3 entries short =>
      rcases entries with _ | ⟨first, _ | ⟨second, rest⟩⟩
      · rfl
      · rfl
      · exact absurd rfl (short first second rest)

theorem image?_withoutDebug (handle : ModuleHandle) :
    session.withoutDebug.image? handle = (session.image? handle).map (·.withoutDebug) := by
  simp only [image?, withoutDebug, List.find?_map, Option.map_map]
  rfl

end

/-- Both sessions know the same images but for their debug data, and are to read such images. -/
structure DebugChange (left right : ImageSession) : Prop where
  files : left.files.DebugChange right.files
  session : right.withoutDebug = left.withoutDebug

namespace DebugChange

theorem new {files others : FileSource} (change : files.DebugChange others) :
    ImageSession.DebugChange (.new files) (.new others) :=
  ⟨change, rfl⟩

variable {left right : ImageSession} (change : left.DebugChange right)
include change

theorem image?_eq (handle : ModuleHandle) :
    (right.image? handle).map (·.withoutDebug) = (left.image? handle).map (·.withoutDebug) := by
  rw [← image?_withoutDebug, ← image?_withoutDebug, change.session]

theorem moduleAt_eq (address : UInt64) : right.moduleAt address = left.moduleAt address := by
  rw [← moduleAt_withoutDebug, change.session, moduleAt_withoutDebug]

theorem registered?_eq (path : FilePath) (loadAddress : UInt64) :
    right.registered? path loadAddress = left.registered? path loadAddress := by
  rw [← registered?_withoutDebug, change.session, registered?_withoutDebug]

theorem pending?_eq {batch other : List Reported}
    (same : other.map (·.withoutDebug) = batch.map (·.withoutDebug)) (path : FilePath)
    (loadAddress : UInt64) :
    right.pending? other path loadAddress = left.pending? batch path loadAddress := by
  rw [← pending?_withoutDebug, change.session, same, pending?_withoutDebug]

theorem lastHandle_eq : right.lastHandle = left.lastHandle := by
  have same := congrArg ImageSession.lastHandle change.session
  exact same

theorem batch_split : (left.batch = none ∧ right.batch = none) ∨
    ∃ batch other, left.batch = some batch ∧ right.batch = some other ∧
      other.map (·.withoutDebug) = batch.map (·.withoutDebug) := by
  have batches : right.batch.map (List.map (·.withoutDebug)) =
      left.batch.map (List.map (·.withoutDebug)) := congrArg ImageSession.batch change.session
  cases isOpen : left.batch with
  | none =>
      rw [isOpen] at batches
      exact .inl ⟨rfl, Option.map_eq_none_iff.mp batches⟩
  | some batch =>
      rw [isOpen] at batches
      obtain ⟨other, otherOpen, same⟩ := Option.map_eq_some_iff.mp batches
      exact .inr ⟨batch, other, rfl, otherOpen, same⟩

theorem reportBegin : left.reportBegin.DebugChange right.reportBegin :=
  ⟨change.files, congrArg ImageSession.reportBegin change.session⟩

theorem replaceFiles {files others : FileSource} (changed : files.DebugChange others) :
    ImageSession.DebugChange { left with files } { right with files := others } :=
  ⟨changed, change.session⟩

/-- Batches stay the same but for debug data when such reports are added to them. -/
theorem append {batch other : List Reported} {reported changed : Reported} {last later : Nat}
    (same : other.map (·.withoutDebug) = batch.map (·.withoutDebug))
    (sameReport : changed.withoutDebug = reported.withoutDebug) (sameLast : later = last) :
    ImageSession.DebugChange
      { left with batch := some (batch ++ [reported]), lastHandle := last }
      { right with batch := some (other ++ [changed]), lastHandle := later } := by
  refine ⟨change.files, ?_⟩
  have modules : right.modules.map (·.withoutDebug) = left.modules.map (·.withoutDebug) :=
    congrArg ImageSession.modules change.session
  simp only [withoutDebug, modules, sameLast, Option.map_some, List.map_append, same, List.map_cons,
    sameReport, List.map_nil]

/-- A report succeeds in both sessions, under the same handle, or fails with the same error. -/
theorem reportModule (path : FilePath) (loadAddress : UInt64) :
    (right.reportModule path loadAddress).1 = (left.reportModule path loadAddress).1 ∧
      (left.reportModule path loadAddress).2.DebugChange
        (right.reportModule path loadAddress).2 := by
  obtain ⟨closed, otherClosed⟩ | ⟨batch, other, isOpen, otherOpen, same⟩ := change.batch_split
  · simp only [ImageSession.reportModule, closed, otherClosed]
    exact ⟨trivial, change⟩
  have pendingEq := change.pending?_eq same path loadAddress
  have registeredEq := change.registered?_eq path loadAddress
  cases pending : left.pending? batch path loadAddress with
  | some handle =>
      rw [pending] at pendingEq
      rw [reportModule_of_pending isOpen pending, reportModule_of_pending otherOpen pendingEq]
      exact ⟨rfl, change⟩
  | none =>
      rw [pending] at pendingEq
      cases registered : left.registered? path loadAddress with
      | some handle =>
          rw [registered] at registeredEq
          rw [reportModule_of_registered isOpen pending registered,
            reportModule_of_registered otherOpen pendingEq registeredEq]
          exact ⟨rfl, change.append same rfl change.lastHandle_eq⟩
      | none =>
          rw [registered] at registeredEq
          obtain ⟨error, failed, otherFailed⟩ | ⟨image, changed, loaded, otherLoaded, bare⟩ :=
            (Image.load_of_debugChange change.files path loadAddress).split
          · rw [reportModule_of_fault isOpen pending registered failed,
              reportModule_of_fault otherOpen pendingEq registeredEq otherFailed]
            exact ⟨rfl, change⟩
          · rw [reportModule_of_read isOpen pending registered loaded,
              reportModule_of_read otherOpen pendingEq registeredEq otherLoaded]
            have last : right.lastHandle + 1 = left.lastHandle + 1 :=
              congrArg (· + 1) change.lastHandle_eq
            have entry : (right.nextEntry changed).withoutDebug =
                (left.nextEntry image).withoutDebug := by
              simp only [RegisteredImage.withoutDebug, nextEntry, bare, last]
            refine ⟨?_, change.append same (congrArg Reported.loaded entry) last⟩
            simp only [nextEntry, last]

/-- A batch ends in both sessions with the same outcome, which names the same images. -/
theorem reportEnd : right.reportEnd.1 = left.reportEnd.1 ∧
    left.reportEnd.2.DebugChange right.reportEnd.2 := by
  obtain ⟨closed, otherClosed⟩ | ⟨batch, other, isOpen, otherOpen, same⟩ := change.batch_split
  · simp only [ImageSession.reportEnd, closed, otherClosed]
    exact ⟨trivial, change⟩
  have committed : (right.commit other).map (·.withoutDebug) =
      (left.commit batch).map (·.withoutDebug) := by
    rw [← commit_withoutDebug, change.session, same, commit_withoutDebug]
  constructor
  · have overlaps := congrArg overlap? committed
    rw [overlap?_withoutDebug, overlap?_withoutDebug] at overlaps
    simp only [ImageSession.reportEnd, isOpen, otherOpen]
    cases overlap : overlap? (left.commit batch) with
    | none =>
        rw [overlap] at overlaps
        rw [Option.map_eq_none_iff.mp overlaps]
    | some pair =>
        rw [overlap] at overlaps
        obtain ⟨otherPair, found, equal⟩ := Option.map_eq_some_iff.mp overlaps
        have first := congrArg (·.1.image.name) equal
        have second := congrArg (·.2.image.name) equal
        rw [found]
        exact congrArg Except.error (congrArg₂ SymbolizeError.overlappingModules first second)
  · rw [reportEnd_snd isOpen, reportEnd_snd otherOpen]
    refine ⟨change.files, ?_⟩
    simp only [withoutDebug, committed, change.lastHandle_eq, Option.map_none]

end DebugChange

end ImageSession

end Symbolization
