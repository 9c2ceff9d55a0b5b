import Symbolization.CommandLine.Outcome
import Symbolization.Proofs.CommandLine.Arguments
import Symbolization.Proofs.Symbolizer.ReportOrder

/-!
# One address after the other

All addresses of a command line go to one symbolizer, which keeps what it built for earlier ones.
Nonetheless each address gets the lines that it gets alone, and the program fails just where it
would fail for one of the addresses alone.
-/

namespace Symbolization

namespace Symbolizer

section

variable {Session : Type} [DebugSession Session] [Surroundings Session] [LawfulSession Session]
  {symbolizer : Symbolizer Session}

theorem Sound.resolve_resolve (sound : symbolizer.Sound) (first second : UInt64) :
    ((symbolizer.resolve first).2.2.resolve second).1 = (symbolizer.resolve second).1 := by
  have stateEq : (symbolizer.resolve first).2.2.state = symbolizer.state := by
    obtain same | ⟨module, built⟩ := resolve_next symbolizer first
    · rw [same]
    · rw [built.next]
      rfl
  have viewEq : (symbolizer.resolve first).2.2.view = symbolizer.view := by
    obtain same | ⟨module, built⟩ := resolve_next symbolizer first
    · rw [same]
    · rw [built.next, view_withIndex]
  rw [resolve_eq_lookup (sound.resolve first).faithful, resolve_eq_lookup sound.faithful, stateEq,
    viewEq]

theorem Sound.resolveEach_eq_map (sound : symbolizer.Sound) (addresses : List UInt64) :
    symbolizer.resolveEach addresses =
      addresses.map fun address => (symbolizer.resolve address).1 := by
  induction addresses generalizing symbolizer with
  | nil => rfl
  | cons address addresses induction =>
      rw [resolveEach, List.map_cons, induction (sound.resolve address)]
      congr 1
      exact List.map_congr_left fun later _ => sound.resolve_resolve address later

end

end Symbolizer

namespace CommandLine

/-- What is printed for all is what is printed for each, one after the other, and the exit code is
one if it is for some of them and zero if it is for all of them. -/
structure Outcome.Joins (whole : Outcome) (parts : List Outcome) : Prop where
  output : whole.output = String.join (parts.map (·.output))
  exitCode_eq_one_iff : whole.exitCode = 1 ↔ ∃ part ∈ parts, part.exitCode = 1
  exitCode_eq_zero_iff : whole.exitCode = 0 ↔ ∀ part ∈ parts, part.exitCode = 0

namespace Request

def only (request : Request) (address : UInt64) : Request := { request with addresses := [address] }

theorem symbolizer_eq_run (request : Request) (source : FileSource) :
    request.symbolizer source =
      (Symbolizer.new (ImageSession.new source)).run
        (Symbolizer.batch (request.images.map fun image => (image.path, image.loadAddress))) := by
  let opened := (Symbolizer.new (ImageSession.new source)).beginReport.2
  have reported : opened.run ((request.images.map fun image =>
      ((image.path : FilePath), image.loadAddress)).map fun origin => .report origin.1 origin.2) =
        request.images.foldl
          (fun symbolizer image => (symbolizer.report image.path image.loadAddress).2) opened := by
    rw [List.map_map, Symbolizer.run, List.foldl_map]
    rfl
  rw [Symbolizer.batch, Symbolizer.run_append]
  exact congrArg (·.endReport.2) reported.symm

theorem sound_symbolizer (request : Request) (source : FileSource) :
    (request.symbolizer source).Sound := by
  rw [symbolizer_eq_run]
  have reachable : (ImageSession.new source).Reachable := .new source
  exact (Symbolizer.sound_new reachable).run _

theorem run_eq (request : Request) (source : FileSource) :
    request.run source = {
      exitCode := if request.addresses.any fun address =>
        ((request.symbolizer source).resolve address).1.isEmpty then 1 else 0
      output := String.join (request.addresses.map fun address =>
        request.lines address ((request.symbolizer source).resolve address).1)
      error := none } := by
  rw [run, (request.sound_symbolizer source).resolveEach_eq_map]
  simp only [List.any_map, List.zipWith_map_right, List.zipWith_self]
  rfl

theorem run_only (request : Request) (source : FileSource) (address : UInt64) :
    (request.only address).run source = {
      exitCode := if ((request.symbolizer source).resolve address).1.isEmpty then 1 else 0
      output := request.lines address ((request.symbolizer source).resolve address).1
      error := none } := by
  rw [run_eq, show (request.only address).addresses = [address] from rfl, List.any_cons,
    List.any_nil, Bool.or_false, List.map_cons, List.map_nil, String.join_cons, String.join_nil,
    String.append_empty]
  rfl

theorem joins_run_only (request : Request) (source : FileSource) :
    (request.run source).Joins
      (request.addresses.map fun address => (request.only address).run source) where
  output := by simp only [run_eq request, List.map_map, Function.comp_def, run_only]
  exitCode_eq_one_iff := by
    simp [run_eq request, run_only, List.any_eq_true]
  exitCode_eq_zero_iff := by
    simp [run_eq request, run_only, List.any_eq_true]

end Request

theorem join_eq_empty {texts : List String} (empty : ∀ text ∈ texts, text = "") :
    String.join texts = "" := by
  induction texts with
  | nil => rfl
  | cons text texts induction =>
      have later := induction fun other member => empty other (by simp [member])
      rw [String.join_cons, empty text (by simp), later, String.append_empty]

/-- Wrong use prints nothing, so where all have it the whole has it too. -/
theorem Outcome.joins_of_usageError {error : UsageError} {parts : List Outcome}
    (nonempty : parts ≠ []) (same : ∀ part ∈ parts, part = ⟨2, "", some error⟩) :
    Outcome.Joins ⟨2, "", some error⟩ parts where
  output := by
    symm
    apply join_eq_empty
    intro text member
    obtain ⟨part, inParts, rfl⟩ := List.mem_map.mp member
    rw [same part inParts]
  exitCode_eq_one_iff := by
    constructor
    · intro one
      simp at one
    · rintro ⟨part, member, one⟩
      rw [same part member] at one
      simp at one
  exitCode_eq_zero_iff := by
    constructor
    · intro zero
      simp at zero
    · intro zero
      obtain ⟨part, member⟩ := List.exists_mem_of_ne_nil parts nonempty
      have partZero := zero part member
      rw [same part member] at partZero
      simp at partZero

/-- All that a command line says of images can be read. -/
def AcceptsImages (images : List String) : Prop :=
  images ≠ [] ∧ ∀ text ∈ images, (parseImage text).isOk

theorem ImageTexts.acceptsImages {images : List String} {read : List ImageArgument}
    (imageTexts : ImageTexts images read) (someImage : read ≠ []) : AcceptsImages images := by
  constructor
  · rintro rfl
    cases imageTexts
    contradiction
  · intro text member
    obtain ⟨image, readImage⟩ := exists_of_forall₂ imageTexts member
    rw [readImage]
    rfl

/-- What is printed for some addresses in some images. -/
def outcome (source : FileSource) (images : List String) (demangles functionsOnly : Bool)
    (addresses : List String) : Outcome :=
  .ofArguments (arguments images demangles functionsOnly addresses) source

section

variable (source : FileSource) {images : List String} {demangles functionsOnly : Bool}
  {texts : List String} {addresses : List UInt64}

/-- Where the images can be read, there is a request for all addresses and one for each of them. -/
theorem joins_of_parsed {read : List ImageArgument}
    (parsed : ∀ texts addresses, texts ≠ [] → AddressTexts texts addresses →
      Request.parse (arguments images demangles functionsOnly texts) =
        .ok ⟨read, addresses, demangles, functionsOnly⟩)
    (nonempty : texts ≠ []) (addressTexts : AddressTexts texts addresses) :
    (outcome source images demangles functionsOnly texts).Joins
        (texts.map fun text => outcome source images demangles functionsOnly [text]) ∧
      ((outcome source images demangles functionsOnly texts).exitCode = 0 ∨
        (outcome source images demangles functionsOnly texts).exitCode = 1) := by
  let request : Request := ⟨read, addresses, demangles, functionsOnly⟩
  have whole : outcome source images demangles functionsOnly texts = request.run source := by
    simp only [outcome, Outcome.ofArguments, parsed texts addresses nonempty addressTexts, request]
  have part : ∀ text address, parseAddress text = .ok address →
      outcome source images demangles functionsOnly [text] =
        (request.only address).run source := by
    intro text address readAddress
    have single := parsed [text] [address] (List.cons_ne_nil _ _) (.cons readAddress .nil)
    simp only [outcome, Outcome.ofArguments, single, Request.only, request]
  have parts : (texts.map fun text => outcome source images demangles functionsOnly [text]) =
      addresses.map fun address => (request.only address).run source := by
    rw [← List.forall₂_eq_eq_eq, List.forall₂_map_left_iff, List.forall₂_map_right_iff]
    exact addressTexts.imp part
  rw [whole, parts]
  refine ⟨request.joins_run_only source, ?_⟩
  rw [request.run_eq]
  dsimp only
  split <;> simp

/-- Wrong use is told for all addresses as it is told for each of them. -/
theorem outcome_of_refused {error : UsageError}
    (refused : ∀ texts addresses, texts ≠ [] → AddressTexts texts addresses →
      Request.parse (arguments images demangles functionsOnly texts) = .error (.error error))
    (nonempty : texts ≠ []) (addressTexts : AddressTexts texts addresses) :
    outcome source images demangles functionsOnly texts = ⟨2, "", some error⟩ ∧
      ∀ text ∈ texts,
        outcome source images demangles functionsOnly [text] = ⟨2, "", some error⟩ := by
  constructor
  · simp only [outcome, Outcome.ofArguments, refused texts addresses nonempty addressTexts]
  · intro text member
    obtain ⟨address, readAddress⟩ := exists_of_forall₂ addressTexts member
    have single := refused [text] [address] (List.cons_ne_nil _ _) (.cons readAddress .nil)
    simp only [outcome, Outcome.ofArguments, single]

end

/-- Whatever images are named and however their names are to be shown, the addresses of a command
line get what each of them gets alone.  Images that cannot be read are told alike for all of them
and for each. -/
theorem joins_outcome (source : FileSource) (images : List String)
    (demangles functionsOnly : Bool) {addresses : List String} (nonempty : addresses ≠ [])
    (valid : ∀ text ∈ addresses, (parseAddress text).isOk) :
    (outcome source images demangles functionsOnly addresses).Joins
        (addresses.map fun text => outcome source images demangles functionsOnly [text]) ∧
      (AcceptsImages images →
        (outcome source images demangles functionsOnly addresses).exitCode = 0 ∨
          (outcome source images demangles functionsOnly addresses).exitCode = 1) ∧
      (¬ AcceptsImages images → ∃ error,
        outcome source images demangles functionsOnly addresses = ⟨2, "", some error⟩ ∧
          ∀ text ∈ addresses,
            outcome source images demangles functionsOnly [text] = ⟨2, "", some error⟩) := by
  obtain ⟨values, texts⟩ := exists_forall₂_of_isOk valid
  rcases parse_arguments_cases images demangles functionsOnly with
    ⟨read, imageTexts, someImage, parsed⟩ | ⟨error, unreadable, refused⟩
  · obtain ⟨joins, zeroOrOne⟩ := joins_of_parsed source parsed nonempty texts
    have accepts : AcceptsImages images := imageTexts.acceptsImages someImage
    exact ⟨joins, fun _ => zeroOrOne, fun refuses => absurd accepts refuses⟩
  · obtain ⟨whole, parts⟩ := outcome_of_refused source refused nonempty texts
    have refuses : ¬ AcceptsImages images := by
      rintro ⟨someImage, readable⟩
      rcases unreadable with noImage | ⟨text, member, faulty⟩
      · contradiction
      · rw [readable text member] at faulty
        contradiction
    refine ⟨?_, fun accepts => absurd accepts refuses, fun _ => ⟨error, whole, parts⟩⟩
    rw [whole]
    apply Outcome.joins_of_usageError (by simpa using nonempty)
    intro part member
    obtain ⟨text, inTexts, rfl⟩ := List.mem_map.mp member
    exact parts text inTexts

/-- One address is in an image, asked for twice, and the other one is in none. -/
theorem joins_withRepeatedAddress :
    let outcome := outcome ImageSession.segmentFiles ["libfoo.so@400000"] false true
    (outcome ["401000", "0x10", "401000"]).Joins
        [outcome ["401000"], outcome ["0x10"], outcome ["401000"]] ∧
      outcome ["401000", "0x10", "401000"] =
        ⟨1, "0x401000\n    ??\n0x10\n0x401000\n    ??\n", none⟩ := by
  have valid : ∀ text ∈ ["401000", "0x10", "401000"], (parseAddress text).isOk := by decide
  have joins := joins_outcome ImageSession.segmentFiles ["libfoo.so@400000"] false true
    (List.cons_ne_nil _ _) valid
  exact ⟨joins.1, by cbv⟩

/-- Without an image the program fails with another exit code than for an address in no image. -/
theorem exitCode_withoutImages :
    ¬ ∀ (source : FileSource) (images : List String) (demangles functionsOnly : Bool)
      (addresses : List String), addresses ≠ [] →
        (∀ text ∈ addresses, (parseAddress text).isOk) →
        let outcome := outcome source images demangles functionsOnly
        (outcome addresses).output =
            String.join (addresses.map fun text => (outcome [text]).output) ∧
          (outcome addresses).exitCode =
            if ∃ text ∈ addresses, (outcome [text]).exitCode = 1 then 1 else 0 := by
  intro zeroOrOne
  have twice := zeroOrOne (fun _ => .error .notFound) [] false false ["401000"]
    (List.cons_ne_nil _ _) (by decide)
  have two : (outcome (fun _ => .error .notFound) [] false false ["401000"]).exitCode = 2 := by cbv
  simp [two] at twice

end CommandLine

end Symbolization
