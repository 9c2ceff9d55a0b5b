import Symbolization.Proofs.Session.Registration

/-!
# The identity of handles

A handle stands for one image as long as there is a session.  Requests bring images under new
handles only, so an image that a later state holds under a handle of today is one that is held
today.  From this follows that a handle which was left out of a batch, or whose batch was given up,
finds nothing ever after.  A report of an image that is there already gives back its handle.
-/

namespace Symbolization

/-- Every question about the module, its units or its entries gets an absent answer. -/
structure DebugView.Absent (view : DebugView) (module : ModuleHandle) : Prop where
  moduleInfo : view.moduleInfo module = none
  nearestSymbol : ∀ address, view.nearestSymbol module address = none
  unitAt : ∀ address, view.unitAt module address = none
  units : view.units module = []
  root : ∀ unit : UnitHandle, unit.module = module → view.root unit = none
  sourcePosition : ∀ unit : UnitHandle, unit.module = module →
    ∀ address, view.sourcePosition unit address = none
  scopes : ∀ unit : UnitHandle, unit.module = module → ∀ address, view.scopes unit address = []
  children : ∀ entry : EntryHandle, entry.unit.module = module → view.children entry = []
  tag : ∀ entry : EntryHandle, entry.unit.module = module → view.tag entry = none
  isDeclaration : ∀ entry : EntryHandle, entry.unit.module = module →
    view.isDeclaration entry = false
  ranges : ∀ entry : EntryHandle, entry.unit.module = module → view.ranges entry = []
  linkageName : ∀ entry : EntryHandle, entry.unit.module = module → view.linkageName entry = none
  callSite : ∀ entry : EntryHandle, entry.unit.module = module →
    view.callSite entry = .unknown

namespace ImageSession

variable {session : ImageSession} {entry : RegisteredImage}

theorem absent_of_image? {module : ModuleHandle} (unknown : session.image? module = none) :
    session.view.Absent module := by
  have noUnit : ∀ unit : UnitHandle, unit.module = module → session.unit? unit = none := by
    rintro unit rfl
    simp [unit?, unknown]
  have noEntry : ∀ entry : EntryHandle, entry.unit.module = module →
      session.entryAt? entry = none := by
    intro entry inside
    simp [entryAt?, noUnit entry.unit inside]
  constructor
  case moduleInfo => simp [view, unknown]
  case nearestSymbol => simp [view, ImageSession.nearestSymbol, unknown]
  case unitAt => simp [view, ImageSession.unitAt, unknown]
  case units => simp [view, ImageSession.units, unknown]
  case root =>
    intro unit inside
    simp [view, noUnit unit inside]
  case sourcePosition | scopes =>
    intro unit inside address
    simp [view, noUnit unit inside]
  case children =>
    intro entry inside
    simp [view, ImageSession.children, noUnit entry.unit inside]
  case tag | isDeclaration | ranges | linkageName | callSite =>
    intro entry inside
    simp [view, noEntry entry inside]

/-- The session holds an image under a handle: as a registered one or in the open batch. -/
def Holds (session : ImageSession) (entry : RegisteredImage) : Prop :=
  session.image? entry.handle = some entry.image ∨
    ∃ batch ∈ session.batch, .loaded entry ∈ batch

namespace Orderly

theorem holds_iff (orderly : session.Orderly) :
    session.Holds entry ↔
      entry ∈ session.modules ∨ ∃ batch ∈ session.batch, .loaded entry ∈ batch := by
  rw [Holds, image?_eq_some_iff orderly]

theorem issued_of_holds (orderly : session.Orderly) (held : session.Holds entry) :
    entry.handle.IsIssued session.lastHandle := by
  rcases orderly.holds_iff.mp held with registered | ⟨batch, isOpen, member⟩
  · exact orderly.issued entry registered
  · exact (orderly.batch batch isOpen).loaded_issued entry member

theorem eq_of_holds (orderly : session.Orderly) {other : RegisteredImage}
    (held : session.Holds entry) (otherHeld : session.Holds other)
    (same : other.handle = entry.handle) : other = entry := by
  rcases orderly.holds_iff.mp held with registered | ⟨batch, isOpen, member⟩
  · rcases orderly.holds_iff.mp otherHeld with otherRegistered | ⟨batch, isOpen, otherMember⟩
    · exact List.inj_on_of_nodup_map orderly.distinct otherRegistered registered same
    · have fresh := (orderly.batch batch isOpen).loaded_fresh other otherMember entry registered
      exact absurd same.symm fresh
  · rcases orderly.holds_iff.mp otherHeld with otherRegistered | ⟨_, isOpenToo, otherMember⟩
    · have fresh := (orderly.batch batch isOpen).loaded_fresh entry member other otherRegistered
      exact absurd same fresh
    · cases isOpen.symm.trans isOpenToo
      have once := (orderly.batch batch isOpen).once
      exact Reported.loaded.inj (List.inj_on_of_nodup_map once otherMember member same)

end Orderly

theorem lastHandle_le_of_step {request : Request} {next : ImageSession}
    (step : Step session request next) : session.lastHandle ≤ next.lastHandle := by
  cases step with
  | read => exact Nat.le_succ _
  | given => exact Nat.le_succ _
  | _ => exact Nat.le_refl _

theorem lastHandle_le_run (session : ImageSession) (requests : List Request) :
    session.lastHandle ≤ (session.run requests).lastHandle := by
  induction requests generalizing session with
  | nil => exact Nat.le_refl _
  | cons request requests induction =>
      exact (lastHandle_le_of_step (session.step_perform request)).trans (induction _)

/-- The next handle is the only one under which an image is added. -/
theorem holds_of_withImage {batch : List Reported} (isOpen : session.batch = some batch)
    {image : Image}
    (held : (session.withImage batch image).Holds entry)
    (issued : entry.handle.number ≤ session.lastHandle) : session.Holds entry := by
  rcases held with registered | ⟨_, ⟨⟩, member⟩
  · exact .inl registered
  · rcases List.mem_append.mp member with earlier | isLast
    · exact .inr ⟨batch, isOpen, earlier⟩
    · cases List.mem_singleton.mp isLast
      exact absurd issued (Nat.not_succ_le_self _)

/-- What a request leaves under a handle of before was there before. -/
theorem holds_of_step (orderly : session.Orderly) {request : Request} {next : ImageSession}
    (step : Step session request next) (held : next.Holds entry)
    (issued : entry.handle.number ≤ session.lastHandle) : session.Holds entry := by
  have orderlyNext := orderly.step step
  cases step with
  | idle files => exact held
  | opened =>
      rcases held with registered | ⟨_, ⟨⟩, member⟩
      · exact .inl registered
      · contradiction
  | @kept path loadAddress batch known isOpen =>
      rcases held with registered | ⟨_, ⟨⟩, member⟩
      · exact .inl registered
      · exact .inr ⟨batch, isOpen, by simpa using member⟩
  | read isOpen => exact holds_of_withImage isOpen held issued
  | given isOpen => exact holds_of_withImage isOpen held issued
  | @ended batch isOpen =>
      rcases orderlyNext.holds_iff.mp held with registered | ⟨_, ⟨⟩, _⟩
      obtain ⟨reported, inBatch, stands⟩ := (orderly.mem_commit_iff isOpen).mp registered
      cases reported with
      | kept handle =>
          exact orderly.holds_iff.mpr (.inl (List.mem_of_find?_eq_some stands))
      | loaded loaded =>
          cases stands
          exact .inr ⟨batch, isOpen, inBatch⟩

/-- What a later state holds under a handle of now is held now. -/
theorem holds_of_run (orderly : session.Orderly) {requests : List Request}
    (held : (session.run requests).Holds entry)
    (issued : entry.handle.number ≤ session.lastHandle) : session.Holds entry := by
  induction requests generalizing session with
  | nil => exact held
  | cons request requests induction =>
      have step := session.step_perform request
      have heldNext := induction (orderly.step step) held
        (issued.trans (lastHandle_le_of_step step))
      exact holds_of_step orderly step heldNext issued

/-- A handle that was given out and finds nothing now will never find anything. -/
theorem absent_run (orderly : session.Orderly) {handle : ModuleHandle}
    (issued : handle.number ≤ session.lastHandle)
    (gone : ∀ image, ¬ session.Holds ⟨handle, image⟩) (requests : List Request) :
    (session.run requests).view.Absent handle := by
  apply absent_of_image?
  cases found : (session.run requests).image? handle with
  | none => rfl
  | some image =>
      have held : (session.run requests).Holds ⟨handle, image⟩ := .inl found
      exact absurd (holds_of_run orderly held issued) (gone image)

/-- What an image and its handle are to each other in all later states. -/
structure Identifies (session : ImageSession) (entry : RegisteredImage) : Prop where
  held : session.Holds entry
  /-- No other image is ever under the handle. -/
  unique : ∀ requests image, (session.run requests).Holds ⟨entry.handle, image⟩ →
    image = entry.image
  /-- A completed batch that leaves the handle out ends its use. -/
  left_out : ∀ requests batch, (session.run requests).batch = some batch →
    entry.handle ∉ batch.map Reported.handle →
    ∀ later, ((session.run requests).reportEnd.2.run later).view.Absent entry.handle
  /-- So does a new batch if the image was added by the one that is given up for it. -/
  given_up : ∀ requests batch, (session.run requests).batch = some batch →
    .loaded entry ∈ batch →
    ∀ later, ((session.run requests).reportBegin.run later).view.Absent entry.handle

theorem identifies_of_holds (orderly : session.Orderly) (held : session.Holds entry) :
    session.Identifies entry := by
  have issued := (orderly.issued_of_holds held).2
  refine ⟨held, ?_, ?_, ?_⟩
  · intro requests image heldLater
    have heldNow := holds_of_run orderly heldLater issued
    exact congrArg RegisteredImage.image (orderly.eq_of_holds held heldNow rfl)
  · intro requests batch isOpen leftOut later
    have orderlyThen := orderly.run requests
    have orderlyAfter := orderlyThen.step (step_perform _ .reportEnd)
    rw [perform, reportEnd_snd isOpen] at orderlyAfter
    rw [reportEnd_snd isOpen]
    apply absent_run orderlyAfter (issued.trans (session.lastHandle_le_run requests))
    intro image heldAfter
    rcases orderlyAfter.holds_iff.mp heldAfter with registered | ⟨_, ⟨⟩, _⟩
    obtain ⟨reported, inBatch, stands⟩ := (orderlyThen.mem_commit_iff isOpen).mp registered
    exact leftOut (List.mem_map.mpr ⟨reported, inBatch, (handle_of_standsFor? stands).symm⟩)
  · intro requests batch isOpen member later
    have orderlyThen := orderly.run requests
    have orderlyAfter : (session.run requests).reportBegin.Orderly := orderlyThen.step .opened
    apply absent_run orderlyAfter (issued.trans (session.lastHandle_le_run requests))
    intro image heldAfter
    rcases orderlyAfter.holds_iff.mp heldAfter with registered | ⟨_, ⟨⟩, inNothing⟩
    · exact (orderlyThen.batch batch isOpen).loaded_fresh entry member _ registered rfl
    · contradiction

namespace Request

/-- Whether the request leaves the open batch open. -/
def isReport : Request → Bool
  | .reportBegin => false
  | .reportEnd => false
  | _ => true

end Request

/-- A report of the open batch stands for the image. -/
def Awaits (session : ImageSession) (entry : RegisteredImage) : Prop :=
  ∃ batch ∈ session.batch, ∃ reported ∈ batch, standsFor? session.modules reported = some entry

/-- A report leaves what is registered alone and adds to the open batch at most. -/
theorem Step.grows {request : Request} {next : ImageSession} (step : Step session request next)
    (isReport : request.isReport) :
    next.modules = session.modules ∧
      ∀ batch ∈ session.batch, ∃ more, next.batch = some (batch ++ more) := by
  have appended : ∀ {batch : List Reported} (more : List Reported), session.batch = some batch →
      ∀ other ∈ session.batch, ∃ rest, some (batch ++ more) = some (other ++ rest) := by
    intro batch more isOpen other isOpenToo
    cases isOpen.symm.trans isOpenToo
    exact ⟨more, rfl⟩
  cases step with
  | idle files => exact ⟨rfl, fun batch isOpen => ⟨[], by simpa using isOpen⟩⟩
  | opened => contradiction
  | kept isOpen => exact ⟨rfl, appended _ isOpen⟩
  | read isOpen => exact ⟨rfl, appended _ isOpen⟩
  | given isOpen => exact ⟨rfl, appended _ isOpen⟩
  | ended => contradiction

theorem Holds.step {request : Request} {next : ImageSession} (held : session.Holds entry)
    (isReport : request.isReport) (step : Step session request next) : next.Holds entry := by
  obtain ⟨modules, grows⟩ := step.grows isReport
  rcases held with registered | ⟨batch, isOpen, member⟩
  · left
    rw [image?, modules]
    exact registered
  · obtain ⟨more, longer⟩ := grows batch isOpen
    exact .inr ⟨_, longer, List.mem_append_left more member⟩

theorem Awaits.step {request : Request} {next : ImageSession} (awaits : session.Awaits entry)
    (isReport : request.isReport) (step : Step session request next) : next.Awaits entry := by
  obtain ⟨batch, isOpen, reported, member, stands⟩ := awaits
  obtain ⟨modules, grows⟩ := step.grows isReport
  obtain ⟨more, longer⟩ := grows batch isOpen
  refine ⟨_, longer, reported, List.mem_append_left more member, ?_⟩
  rw [modules]
  exact stands

theorem Awaits.run {requests : List Request} (awaits : session.Awaits entry)
    (reports : ∀ request ∈ requests, request.isReport) : (session.run requests).Awaits entry := by
  induction requests generalizing session with
  | nil => exact awaits
  | cons request requests induction =>
      apply induction (awaits.step (reports request (by simp)) (session.step_perform request))
      intro later member
      exact reports later (by simp [member])

theorem Awaits.image?_reportEnd (awaits : session.Awaits entry) (orderly : session.Orderly) :
    session.reportEnd.2.image? entry.handle = some entry.image := by
  obtain ⟨batch, isOpen, reported, member, stands⟩ := awaits
  have orderlyAfter := orderly.step (session.step_perform .reportEnd)
  apply (image?_eq_some_iff orderlyAfter).mpr
  rw [perform, reportEnd_snd isOpen]
  exact (orderly.mem_commit_iff isOpen).mpr ⟨reported, member, stands⟩

/-- A report of an image that is there gives the handle that it has. -/
structure Reuses (session : ImageSession) (path : FilePath) (loadAddress : UInt64)
    (entry : RegisteredImage) : Prop where
  isOf : entry.isOf path loadAddress
  held : session.Holds entry
  answer : (session.reportModule path loadAddress).1 = .ok entry.handle
  no_new_handle : (session.reportModule path loadAddress).2.lastHandle = session.lastHandle
  /-- Whatever the files are, they have no part in it. -/
  no_file : ∀ files, reportModule { session with files } path loadAddress =
    ((session.reportModule path loadAddress).1,
      { (session.reportModule path loadAddress).2 with files })
  /-- If the batch is completed the handle finds the image. -/
  completed : ∀ requests, (∀ request ∈ requests, request.isReport) →
    ((session.reportModule path loadAddress).2.run requests).reportEnd.2.image? entry.handle =
      some entry.image

theorem exists_of_covers (orderly : session.Orderly) {path : FilePath} {loadAddress : UInt64}
    {reported : Reported} (covered : session.covers path loadAddress reported) :
    ∃ entry, standsFor? session.modules reported = some entry ∧ entry.isOf path loadAddress := by
  cases reported with
  | kept handle =>
      obtain ⟨entry, member, matching⟩ := List.any_eq_true.mp covered
      rw [Bool.and_eq_true, beq_iff_eq] at matching
      obtain ⟨rfl, isOf⟩ := matching
      exact ⟨entry, orderly.standsFor?_kept member, isOf⟩
  | loaded entry => exact ⟨entry, rfl, covered⟩

theorem Orderly.holds_of_awaits (orderly : session.Orderly) (awaits : session.Awaits entry) :
    session.Holds entry := by
  obtain ⟨batch, isOpen, reported, member, stands⟩ := awaits
  cases reported with
  | kept handle => exact orderly.holds_iff.mpr (.inl (List.mem_of_find?_eq_some stands))
  | loaded loaded =>
      cases stands
      exact .inr ⟨batch, isOpen, member⟩

theorem reuses_of_pending (orderly : session.Orderly) {path : FilePath} {loadAddress : UInt64}
    {batch : List Reported} {handle : ModuleHandle} (isOpen : session.batch = some batch)
    (pending : session.pending? batch path loadAddress = some handle) :
    ∃ entry, session.Reuses path loadAddress entry := by
  obtain ⟨reported, found, rfl⟩ := Option.map_eq_some_iff.mp pending
  obtain ⟨entry, stands, isOf⟩ := exists_of_covers orderly (List.find?_some found)
  have awaits : session.Awaits entry :=
    ⟨batch, isOpen, reported, List.mem_of_find?_eq_some found, stands⟩
  have outcome := reportModule_of_pending isOpen pending
  refine ⟨entry, isOf, orderly.holds_of_awaits awaits, ?_, ?_, ?_, ?_⟩
  · rw [outcome, handle_of_standsFor? stands]
  · rw [outcome]
  · intro files
    rw [outcome]
    exact reportModule_of_pending isOpen pending
  · intro requests reports
    rw [outcome]
    exact (awaits.run reports).image?_reportEnd (orderly.run requests)

theorem reuses_of_registered (orderly : session.Orderly) {path : FilePath} {loadAddress : UInt64}
    {batch : List Reported} {handle : ModuleHandle} (isOpen : session.batch = some batch)
    (notPending : session.pending? batch path loadAddress = none)
    (registered : session.registered? path loadAddress = some handle) :
    ∃ entry, session.Reuses path loadAddress entry := by
  obtain ⟨entry, member, isOf, rfl⟩ := registered?_eq_some registered
  have outcome := reportModule_of_registered isOpen notPending registered
  refine ⟨entry, isOf, orderly.holds_iff.mpr (.inl member), ?_, ?_, ?_, ?_⟩
  · rw [outcome]
  · rw [outcome]
  · intro files
    rw [outcome]
    exact reportModule_of_registered isOpen notPending registered
  · intro requests reports
    have orderlyNext := orderly.step (session.step_reportModule path loadAddress)
    rw [outcome] at orderlyNext ⊢
    have awaits : Awaits { session with batch := some (batch ++ [.kept entry.handle]) } entry :=
      ⟨_, rfl, .kept entry.handle, by simp, orderly.standsFor?_kept member⟩
    exact (awaits.run reports).image?_reportEnd (orderlyNext.run requests)

theorem exists_reuses (orderly : session.Orderly) {path : FilePath} {loadAddress : UInt64}
    {batch : List Reported} (isOpen : session.batch = some batch) (held : session.Holds entry)
    (isOf : entry.isOf path loadAddress) : ∃ known, session.Reuses path loadAddress known := by
  cases pending : session.pending? batch path loadAddress with
  | some handle => exact reuses_of_pending orderly isOpen pending
  | none =>
      rcases orderly.holds_iff.mp held with member | ⟨_, isOpenToo, member⟩
      · have known : (session.registered? path loadAddress).isSome := by
          rw [registered?, Option.isSome_map, List.find?_isSome]
          exact ⟨entry, member, isOf⟩
        obtain ⟨handle, registered⟩ := Option.isSome_iff_exists.mp known
        exact reuses_of_registered orderly isOpen pending registered
      · cases isOpen.symm.trans isOpenToo
        exact absurd isOf (not_isOf_of_pending? pending member rfl)

/-- A report of a path brings an image that was there already or is read now. -/
structure Delivers (session : ImageSession) (path : FilePath) (loadAddress : UInt64)
    (entry : RegisteredImage) : Prop where
  isOf : entry.isOf path loadAddress
  source : session.Holds entry ∨ Image.load session.files path loadAddress = .ok entry.image
  identifies : (session.reportModule path loadAddress).2.Identifies entry

/-- What reports of a session mean for all time. -/
structure KeepsHandles (session : ImageSession) : Prop where
  given : ∀ image handle, (session.reportImage image).1 = .ok handle →
    (session.reportImage image).2.Identifies ⟨handle, image⟩
  reported : ∀ path loadAddress handle, (session.reportModule path loadAddress).1 = .ok handle →
    ∃ image, session.Delivers path loadAddress ⟨handle, image⟩
  reused : ∀ path loadAddress entry, session.batch.isSome → session.Holds entry →
    entry.isOf path loadAddress → ∃ known, session.Reuses path loadAddress known

theorem identifies_reportImage (orderly : session.Orderly) {image : Image}
    {handle : ModuleHandle} (answered : (session.reportImage image).1 = .ok handle) :
    (session.reportImage image).2.Identifies ⟨handle, image⟩ := by
  cases isOpen : session.batch with
  | none =>
      rw [reportImage, isOpen] at answered
      contradiction
  | some batch =>
      rw [reportImage_eq isOpen] at answered ⊢
      cases answered
      apply identifies_of_holds (orderly.loadImage isOpen image)
      exact .inr ⟨_, rfl, by simp [nextEntry]⟩

theorem Reuses.delivers {path : FilePath} {loadAddress : UInt64}
    (reuses : session.Reuses path loadAddress entry) (orderly : session.Orderly) :
    session.Delivers path loadAddress entry := by
  have step := session.step_reportModule path loadAddress
  have heldNext := reuses.held.step rfl step
  exact ⟨reuses.isOf, .inl reuses.held, identifies_of_holds (orderly.step step) heldNext⟩

theorem delivers_of_read (orderly : session.Orderly) {path : FilePath} {loadAddress : UInt64}
    {batch : List Reported} {image : Image} (isOpen : session.batch = some batch)
    (notPending : session.pending? batch path loadAddress = none)
    (notRegistered : session.registered? path loadAddress = none)
    (loaded : Image.load session.files path loadAddress = .ok image) :
    session.Delivers path loadAddress (session.nextEntry image) := by
  refine ⟨isOf_nextEntry loaded, .inr loaded, ?_⟩
  rw [reportModule_of_read isOpen notPending notRegistered loaded]
  apply identifies_of_holds (orderly.loadImage isOpen image)
  exact .inr ⟨_, rfl, by simp⟩

theorem exists_delivers (orderly : session.Orderly) {path : FilePath} {loadAddress : UInt64}
    {handle : ModuleHandle} (answered : (session.reportModule path loadAddress).1 = .ok handle) :
    ∃ image, session.Delivers path loadAddress ⟨handle, image⟩ := by
  have reuse : ∀ known, session.Reuses path loadAddress known →
      ∃ image, session.Delivers path loadAddress ⟨handle, image⟩ := by
    intro known reuses
    obtain rfl : known.handle = handle := Except.ok.inj (reuses.answer.symm.trans answered)
    exact ⟨known.image, reuses.delivers orderly⟩
  cases isOpen : session.batch with
  | none =>
      rw [reportModule, isOpen] at answered
      contradiction
  | some batch =>
      cases pending : session.pending? batch path loadAddress with
      | some found =>
          obtain ⟨known, reuses⟩ := reuses_of_pending orderly isOpen pending
          exact reuse known reuses
      | none =>
          cases registered : session.registered? path loadAddress with
          | some found =>
              obtain ⟨known, reuses⟩ := reuses_of_registered orderly isOpen pending registered
              exact reuse known reuses
          | none =>
              cases loaded : Image.load session.files path loadAddress with
              | error error =>
                  rw [reportModule_of_fault isOpen pending registered loaded] at answered
                  contradiction
              | ok image =>
                  have delivers := delivers_of_read orderly isOpen pending registered loaded
                  rw [reportModule_of_read isOpen pending registered loaded] at answered
                  cases answered
                  exact ⟨image, delivers⟩

/-- In every state of a session a handle that is given out stands for one image for ever, and finds
nothing any more once it was left out; an image that is there keeps its handle. -/
theorem keepsHandles_of_reachable (reachable : session.Reachable) : session.KeepsHandles := by
  have orderly := reachable.orderly
  refine ⟨?_, ?_, ?_⟩
  · intro image handle answered
    exact identifies_reportImage orderly answered
  · intro path loadAddress handle answered
    exact exists_delivers orderly answered
  · intro path loadAddress entry isOpen held isOf
    obtain ⟨batch, isOpen⟩ := Option.isSome_iff_exists.mp isOpen
    exact exists_reuses orderly isOpen held isOf

/-- One image is registered, another one waits in the open batch. -/
def withReopenedBatch : ImageSession :=
  run (.new fun _ => .error .notFound)
    [.reportBegin, .reportImage (bareImage "libfoo.so" 0x1000 0x100), .reportEnd, .reportBegin,
      .reportImage (bareImage "libbar.so" 0x2000 0x100)]

theorem keepsHandles_withReopenedBatch :
    withReopenedBatch.KeepsHandles ∧
      (withReopenedBatch.reportModule "libfoo.so" 0x1000).1 = .ok ⟨1⟩ ∧
      (withReopenedBatch.reportModule "libbar.so" 0x2000).1 = .ok ⟨2⟩ ∧
      withReopenedBatch.reportEnd.2.view.Absent ⟨1⟩ ∧
      withReopenedBatch.reportBegin.view.Absent ⟨2⟩ := by
  have keeps := keepsHandles_of_reachable
    ((Reachable.new fun _ => .error .notFound).run
      [.reportBegin, .reportImage (bareImage "libfoo.so" 0x1000 0x100), .reportEnd, .reportBegin,
        .reportImage (bareImage "libbar.so" 0x2000 0x100)])
  refine ⟨keeps, by cbv, by cbv, ?_, ?_⟩
  · exact absent_of_image? (by cbv)
  · exact absent_of_image? (by cbv)

end ImageSession

end Symbolization
