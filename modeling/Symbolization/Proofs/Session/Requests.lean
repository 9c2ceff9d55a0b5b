import Symbolization.Session.ImageSession

/-!
# Requests to a session over images

The requests that a session takes, in any order and number, and all that one of them can do.  The
properties of runs are derived from the steps, which say what a request changes and under which
conditions.
-/

namespace Symbolization

theorem Image.ofFile_placed {name : String} {bias : UInt64} {file : Elf.File} {image : Image}
    (made : Image.ofFile name bias file = .ok image) : image.name = name ∧ image.bias = bias := by
  unfold Image.ofFile at made
  cases extent : file.extent? with
  | none => simp [extent] at made
  | some interval =>
      rw [extent] at made
      cases made
      exact ⟨rfl, rfl⟩

/-- An image goes by the path and the load address with which it was asked for. -/
theorem Image.load_placed {files : FileSource} {path : FilePath} {bias : UInt64} {image : Image}
    (loaded : Image.load files path bias = .ok image) :
    image.name = path.told ∧ image.bias = bias := by
  unfold Image.load at loaded
  cases found : files path with
  | error error => simp [found] at loaded
  | ok bytes =>
      rw [found] at loaded
      dsimp only at loaded
      by_cases empty : bytes.size = 0
      · rw [if_pos empty] at loaded
        contradiction
      · rw [if_neg empty] at loaded
        cases parsed : Elf.File.parse bytes with
        | error error => simp [parsed] at loaded
        | ok file =>
            rw [parsed] at loaded
            exact Image.ofFile_placed loaded

namespace ImageSession

/-- What can happen to a session. -/
inductive Request where
  | reportBegin
  | reportModule (path : FilePath) (loadAddress : UInt64)
  | reportImage (image : Image)
  | reportEnd
  /-- The files change, which no one tells the session. -/
  | replaceFiles (files : FileSource)

/-- The session after a request, whether the request succeeded or not. -/
def perform (session : ImageSession) : Request → ImageSession
  | .reportBegin => session.reportBegin
  | .reportModule path loadAddress => (session.reportModule path loadAddress).2
  | .reportImage image => (session.reportImage image).2
  | .reportEnd => session.reportEnd.2
  | .replaceFiles files => { session with files }

def run (session : ImageSession) (requests : List Request) : ImageSession :=
  requests.foldl perform session

/-- The sessions that some requests lead to. -/
inductive Reachable : ImageSession → Prop where
  | new (files : FileSource) : Reachable (.new files)
  | perform {session : ImageSession} (request : Request) :
      Reachable session → Reachable (session.perform request)

theorem Reachable.run {session : ImageSession} (reachable : session.Reachable)
    (requests : List Request) : (session.run requests).Reachable := by
  induction requests generalizing session with
  | nil => exact reachable
  | cons request requests induction => exact induction (reachable.perform request)

/-- An image without symbols and debug data. -/
def bareImage (name : String) (start length : UInt64) : Image :=
  ⟨name, start, start, length, ⟨[]⟩, ⟨[], []⟩⟩

/-- An image that was given a new handle. -/
def nextEntry (session : ImageSession) (image : Image) : RegisteredImage :=
  ⟨⟨session.lastHandle + 1⟩, image⟩

theorem isOf_nextEntry {session : ImageSession} {path : FilePath} {loadAddress : UInt64}
    {image : Image} (loaded : Image.load session.files path loadAddress = .ok image) :
    (session.nextEntry image).isOf path loadAddress := by
  obtain ⟨named, placed⟩ := Image.load_placed loaded
  simp [RegisteredImage.isOf, nextEntry, named, placed]

/-- The session after an image was added to its batch under a new handle. -/
def withImage (session : ImageSession) (batch : List Reported) (image : Image) : ImageSession :=
  { session with
    batch := some (batch ++ [.loaded (session.nextEntry image)])
    lastHandle := session.lastHandle + 1 }

/-- What a request can do. -/
inductive Step (session : ImageSession) : Request → ImageSession → Prop where
  /-- The request fails, or its image is pending already, or it changes the files. -/
  | idle {request : Request} (files : FileSource) : Step session request { session with files }
  | opened : Step session .reportBegin { session with batch := some [] }
  | kept {path : FilePath} {loadAddress : UInt64} {batch : List Reported} {entry : RegisteredImage} :
      session.batch = some batch → session.pending? batch path loadAddress = none →
      entry ∈ session.modules → entry.isOf path loadAddress →
      Step session (.reportModule path loadAddress)
        { session with batch := some (batch ++ [.kept entry.handle]) }
  | read {path : FilePath} {loadAddress : UInt64} {batch : List Reported} {image : Image} :
      session.batch = some batch → session.pending? batch path loadAddress = none →
      session.registered? path loadAddress = none →
      Image.load session.files path loadAddress = .ok image →
      Step session (.reportModule path loadAddress) (session.withImage batch image)
  | given {batch : List Reported} {image : Image} :
      session.batch = some batch → Step session (.reportImage image) (session.withImage batch image)
  | ended {batch : List Reported} :
      session.batch = some batch →
      Step session .reportEnd { session with modules := session.commit batch, batch := none }

theorem reportImage_eq {session : ImageSession} {batch : List Reported}
    (isOpen : session.batch = some batch) (image : Image) :
    session.reportImage image =
      (.ok (session.nextEntry image).handle, session.withImage batch image) := by
  rw [reportImage, isOpen]
  rfl

theorem reportEnd_snd {session : ImageSession} {batch : List Reported}
    (isOpen : session.batch = some batch) :
    session.reportEnd.2 = { session with modules := session.commit batch, batch := none } := by
  rw [reportEnd, isOpen]

theorem reportModule_of_fault {session : ImageSession} {batch : List Reported} {path : FilePath}
    {loadAddress : UInt64} {error : SymbolizeError} (isOpen : session.batch = some batch)
    (notPending : session.pending? batch path loadAddress = none)
    (notRegistered : session.registered? path loadAddress = none)
    (failed : Image.load session.files path loadAddress = .error error) :
    session.reportModule path loadAddress = (.error error, session) := by
  simp only [reportModule, isOpen, notPending, notRegistered, failed]

theorem reportModule_of_read {session : ImageSession} {batch : List Reported} {path : FilePath}
    {loadAddress : UInt64} {image : Image} (isOpen : session.batch = some batch)
    (notPending : session.pending? batch path loadAddress = none)
    (notRegistered : session.registered? path loadAddress = none)
    (loaded : Image.load session.files path loadAddress = .ok image) :
    session.reportModule path loadAddress =
      (.ok (session.nextEntry image).handle, session.withImage batch image) := by
  simp only [reportModule, isOpen, notPending, notRegistered, loaded]
  exact reportImage_eq isOpen image

theorem reportModule_of_pending {session : ImageSession} {batch : List Reported} {path : FilePath}
    {loadAddress : UInt64} {handle : ModuleHandle} (isOpen : session.batch = some batch)
    (pending : session.pending? batch path loadAddress = some handle) :
    session.reportModule path loadAddress = (.ok handle, session) := by
  simp only [reportModule, isOpen, pending]

theorem reportModule_of_registered {session : ImageSession} {batch : List Reported}
    {path : FilePath} {loadAddress : UInt64} {handle : ModuleHandle}
    (isOpen : session.batch = some batch)
    (notPending : session.pending? batch path loadAddress = none)
    (registered : session.registered? path loadAddress = some handle) :
    session.reportModule path loadAddress =
      (.ok handle, { session with batch := some (batch ++ [.kept handle]) }) := by
  simp only [reportModule, isOpen, notPending, registered]

theorem registered?_eq_some {session : ImageSession} {path : FilePath} {loadAddress : UInt64}
    {handle : ModuleHandle} (registered : session.registered? path loadAddress = some handle) :
    ∃ entry ∈ session.modules, entry.isOf path loadAddress ∧ entry.handle = handle := by
  obtain ⟨entry, found, named⟩ := Option.map_eq_some_iff.mp registered
  have isOf : entry.isOf path loadAddress = true := (List.find?_some found :)
  exact ⟨entry, List.mem_of_find?_eq_some found, isOf, named⟩

theorem step_reportModule (session : ImageSession) (path : FilePath) (loadAddress : UInt64) :
    Step session (.reportModule path loadAddress) (session.reportModule path loadAddress).2 := by
  cases isOpen : session.batch with
  | none =>
      rw [reportModule, isOpen]
      exact .idle session.files
  | some batch =>
      cases pending : session.pending? batch path loadAddress with
      | some handle =>
          rw [reportModule_of_pending isOpen pending]
          exact .idle session.files
      | none =>
          cases registered : session.registered? path loadAddress with
          | some handle =>
              obtain ⟨entry, member, isOf, rfl⟩ := registered?_eq_some registered
              rw [reportModule_of_registered isOpen pending registered]
              exact .kept isOpen pending member isOf
          | none =>
              cases loaded : Image.load session.files path loadAddress with
              | error error =>
                  rw [reportModule_of_fault isOpen pending registered loaded]
                  exact .idle session.files
              | ok image =>
                  rw [reportModule_of_read isOpen pending registered loaded]
                  exact .read isOpen pending registered loaded

theorem step_perform (session : ImageSession) (request : Request) :
    Step session request (session.perform request) := by
  cases request with
  | reportBegin => exact .opened
  | reportModule path loadAddress => exact session.step_reportModule path loadAddress
  | reportImage image =>
      rw [perform]
      cases isOpen : session.batch with
      | none =>
          rw [reportImage, isOpen]
          exact .idle session.files
      | some batch =>
          rw [reportImage_eq isOpen]
          exact .given isOpen
  | reportEnd =>
      rw [perform]
      cases isOpen : session.batch with
      | none =>
          rw [reportEnd, isOpen]
          exact .idle session.files
      | some batch =>
          rw [reportEnd_snd isOpen]
          exact .ended isOpen
  | replaceFiles files => exact .idle files

theorem Step.modules_eq {session next : ImageSession} {request : Request}
    (step : Step session request next) (notEnd : request ≠ .reportEnd) :
    next.modules = session.modules := by
  cases step with
  | ended => contradiction
  | _ => rfl

def Request.filesAfter (files : FileSource) : Request → FileSource
  | .replaceFiles later => later
  | _ => files

theorem files_perform (session : ImageSession) (request : Request) :
    (session.perform request).files = request.filesAfter session.files := by
  cases request with
  | reportModule path loadAddress =>
      simp only [perform, reportModule, reportImage, Request.filesAfter]
      cases session.batch with
      | none => rfl
      | some batch =>
          dsimp only
          repeat' split
          all_goals rfl
  | reportImage image =>
      simp only [perform, reportImage, Request.filesAfter]
      split <;> rfl
  | reportEnd =>
      simp only [perform, reportEnd, Request.filesAfter]
      split <;> rfl
  | _ => rfl

theorem run_append (session : ImageSession) (first second : List Request) :
    session.run (first ++ second) = (session.run first).run second :=
  List.foldl_append

theorem run_induction {holds : ImageSession → Prop}
    (step : ∀ {session : ImageSession} {request : Request} {next : ImageSession},
      holds session → Step session request next → holds next)
    {session : ImageSession} (start : holds session) (requests : List Request) :
    holds (session.run requests) := by
  induction requests generalizing session with
  | nil => exact start
  | cons request requests induction =>
      exact induction (step start (session.step_perform request))

end ImageSession

end Symbolization
