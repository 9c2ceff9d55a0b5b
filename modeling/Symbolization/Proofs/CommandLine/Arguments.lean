import Symbolization.CommandLine.Request
import Mathlib.Data.List.Forall2

/-!
# Reading a command line

The arguments that ask for some addresses in some images are read as just that: the images come out
as they would alone, and so do the addresses.  So whatever is wrong with the images, it is told the
same for any addresses.
-/

namespace Symbolization

namespace CommandLine

/-- The options for images and for how to show what is found in them. -/
def options (images : List String) (demangles functionsOnly : Bool) : List String :=
  images.map ("--elf=" ++ ·) ++ (if demangles then ["--demangle"] else []) ++
    if functionsOnly then ["--functions-only"] else []

def arguments (images : List String) (demangles functionsOnly : Bool) (addresses : List String) :
    List String :=
  options images demangles functionsOnly ++ addresses

/-- The texts are those of the addresses. -/
def AddressTexts : List String → List UInt64 → Prop :=
  List.Forall₂ fun text address => parseAddress text = .ok address

def ImageTexts : List String → List ImageArgument → Prop :=
  List.Forall₂ fun text image => parseImage text = .ok image

theorem exists_forall₂_of_isOk {ε α : Type} {read : String → Except ε α} {texts : List String}
    (readable : ∀ text ∈ texts, (read text).isOk) :
    ∃ values, List.Forall₂ (fun text value => read text = .ok value) texts values := by
  induction texts with
  | nil => exact ⟨[], .nil⟩
  | cons text texts induction =>
      obtain ⟨values, rest⟩ := induction fun later member => readable later (by simp [member])
      have first := readable text (by simp)
      cases outcome : read text with
      | ok value => exact ⟨value :: values, .cons outcome rest⟩
      | error error => simp [outcome, Except.isOk, Except.toBool] at first

theorem exists_of_forall₂ {ε α : Type} {read : String → Except ε α} {texts : List String}
    {values : List α}
    (all : List.Forall₂ (fun text value => read text = .ok value) texts values) {text : String}
    (member : text ∈ texts) : ∃ value, read text = .ok value := by
  induction all with
  | nil => contradiction
  | @cons _ value _ _ first _ induction =>
      rcases List.mem_cons.mp member with rfl | later
      · exact ⟨value, first⟩
      · exact induction later

theorem head?_ne_of_parseAddress {text : String} {address : UInt64}
    (read : parseAddress text = .ok address) : text.toList.head? ≠ some '-' := by
  intro hyphen
  obtain ⟨rest, characters⟩ := List.head?_eq_some_iff.mp hyphen
  simp [parseAddress, Hexadecimal.parse, characters, Hexadecimal.readUnsigned,
    Hexadecimal.readDigits, Hexadecimal.digit?, Except.mapError] at read

namespace Draft

variable {draft : Draft}

/-- Without two hyphens among them the arguments are taken one by one. -/
theorem takeAll_eq_foldlM (draft : Draft) {arguments : List String} (plain : "--" ∉ arguments) :
    draft.takeAll arguments = arguments.foldlM takeArgument draft := by
  induction arguments generalizing draft with
  | nil => rfl
  | cons argument rest induction =>
      obtain ⟨notHyphens, plainRest⟩ := not_or.mp (mt List.mem_cons.mpr plain)
      have next : ∀ taken : Draft, taken.takeAll rest = rest.foldlM takeArgument taken :=
        fun taken => induction taken plainRest
      rw [takeAll, List.foldlM_cons]
      · simp only [next]
      · exact fun hyphens => notHyphens hyphens.symm

theorem check_of_nothing (settled : draft.unchecked = .nothing) : draft.check = .ok draft := by
  rw [check, settled]

theorem takeArgument_image (settled : draft.unchecked = .nothing) (value : String) :
    draft.takeArgument ("--elf=" ++ value) = draft.addImage value := by
  have characters : ("--elf=" ++ value).toList =
      '-' :: '-' :: 'e' :: 'l' :: 'f' :: '=' :: value.toList := by
    rw [String.toList_append]
    rfl
  have taken : draft.takeArgument ("--elf=" ++ value) = draft.takeImageOption (some value) := by
    simp [takeArgument, characters, takeLong]
  rw [taken, takeImageOption, check_of_nothing settled]
  rfl

theorem foldlM_takeArgument_images (settled : draft.unchecked = .nothing)
    (images : List String) :
    (images.map ("--elf=" ++ ·)).foldlM takeArgument draft = images.foldlM addImage draft := by
  induction images generalizing draft with
  | nil => rfl
  | cons image images induction =>
      rw [List.map_cons, List.foldlM_cons, List.foldlM_cons, takeArgument_image settled]
      unfold addImage
      cases parseImage image with
      | error error => rfl
      | ok read => exact induction rfl

/-- Either all images are added, or the first of them that cannot be read is told. -/
theorem foldlM_addImage_cases (settled : draft.unchecked = .nothing) (images : List String) :
    (∃ read, ImageTexts images read ∧ images.foldlM addImage draft =
      .ok { draft with request.images := draft.request.images ++ read }) ∨
    ∃ error, images.foldlM addImage draft = .error (.error error) ∧
      ∃ text ∈ images, (parseImage text).isOk = false := by
  induction images generalizing draft with
  | nil => exact .inl ⟨[], .nil, by rw [List.append_nil]; rfl⟩
  | cons text images induction =>
      rw [List.foldlM_cons]
      cases outcome : parseImage text with
      | error error =>
          right
          refine ⟨.invalidValue text .images error, ?_, text, by simp, by rw [outcome]; rfl⟩
          simp [addImage, outcome, bind, Except.bind]
      | ok image =>
          let next : Draft := { draft with
            request.images := draft.request.images ++ [image], unchecked := .nothing }
          have added : draft.addImage text = .ok next := by simp [addImage, outcome, next]
          have nextSettled : next.unchecked = .nothing := rfl
          rw [added]
          rcases induction nextSettled with
            ⟨read, texts, all⟩ | ⟨error, failed, later, member, unreadable⟩
          · left
            refine ⟨image :: read, .cons outcome texts, all.trans ?_⟩
            simp [next, settled]
          · exact .inr ⟨error, failed, later, by simp [member], unreadable⟩

theorem takeArgument_demangle (settled : draft.unchecked = .nothing)
    (first : draft.request.demangles = false) :
    draft.takeArgument "--demangle" = .ok { draft with request.demangles := true } := by
  have taken : draft.takeArgument "--demangle" = draft.takeFlag .demangle := by rfl
  rw [taken, takeFlag, check_of_nothing settled]
  simp [bind, Except.bind, pure, Except.pure, first]

theorem takeArgument_functionsOnly (settled : draft.unchecked = .nothing)
    (first : draft.request.functionsOnly = false) :
    draft.takeArgument "--functions-only" = .ok { draft with request.functionsOnly := true } := by
  have taken : draft.takeArgument "--functions-only" = draft.takeFlag .functionsOnly := by rfl
  rw [taken, takeFlag, check_of_nothing settled]
  simp [bind, Except.bind, pure, Except.pure, first]

theorem takeArgument_value {text : String} (noOption : text.toList.head? ≠ some '-')
    (noImage : draft.unchecked ≠ .image none) : draft.takeArgument text = draft.takeValue text := by
  unfold takeArgument
  split
  · rename_i characters
    simp [characters] at noOption
  · rename_i characters
    simp [characters] at noOption
  · split
    · contradiction
    · rfl

theorem foldlM_takeArgument_of_addresses {earlier texts : List String}
    (unchecked : draft.unchecked = .addresses earlier)
    (noOptions : ∀ text ∈ texts, text.toList.head? ≠ some '-') :
    texts.foldlM takeArgument draft =
      .ok { draft with unchecked := .addresses (earlier ++ texts) } := by
  induction texts generalizing draft earlier with
  | nil => simp [← unchecked, pure, Except.pure]
  | cons text texts induction =>
      let next : Draft := { draft with unchecked := .addresses (earlier ++ [text]) }
      have taken : draft.takeArgument text = .ok next := by
        rw [takeArgument_value (noOptions text (by simp)) (by simp [unchecked]), takeValue,
          unchecked]
      have nextUnchecked : next.unchecked = .addresses (earlier ++ [text]) := rfl
      have later := induction nextUnchecked fun other member => noOptions other (by simp [member])
      rw [List.foldlM_cons, taken]
      refine later.trans ?_
      rw [List.append_assoc, List.singleton_append]

theorem foldlM_takeArgument_addresses {texts : List String} (nonempty : texts ≠ [])
    (settled : draft.unchecked = .nothing)
    (noOptions : ∀ text ∈ texts, text.toList.head? ≠ some '-') :
    texts.foldlM takeArgument draft = .ok { draft with unchecked := .addresses texts } := by
  cases texts with
  | nil => contradiction
  | cons text texts =>
      let next : Draft := { draft with unchecked := .addresses [text] }
      have taken : draft.takeArgument text = .ok next := by
        rw [takeArgument_value (noOptions text (by simp)) (by simp [settled]), takeValue, settled,
          check_of_nothing settled]
        rfl
      have nextUnchecked : next.unchecked = .addresses [text] := rfl
      have noOptionsBehind : ∀ other ∈ texts, other.toList.head? ≠ some '-' :=
        fun other member => noOptions other (by simp [member])
      rw [List.foldlM_cons, taken]
      exact foldlM_takeArgument_of_addresses nextUnchecked noOptionsBehind

theorem foldlM_addAddress {texts : List String} {addresses : List UInt64}
    (read : AddressTexts texts addresses) (settled : draft.unchecked = .nothing) :
    texts.foldlM addAddress draft =
      .ok { draft with request.addresses := draft.request.addresses ++ addresses } := by
  induction read generalizing draft with
  | nil => simp [pure, Except.pure]
  | @cons text address texts addresses first rest induction =>
      let next : Draft := { draft with request.addresses := draft.request.addresses ++ [address] }
      have added : draft.addAddress text = .ok next := by simp [addAddress, first, settled, next]
      have nextSettled : next.unchecked = .nothing := settled
      rw [List.foldlM_cons, added]
      refine (induction nextSettled).trans ?_
      simp [next]

/-- Either the options are taken for what they are, or an image that cannot be read is told. -/
theorem foldlM_takeArgument_options (images : List String) (demangles functionsOnly : Bool) :
    (∃ read, ImageTexts images read ∧
      (options images demangles functionsOnly).foldlM takeArgument empty =
        .ok ⟨⟨read, [], demangles, functionsOnly⟩, .nothing⟩) ∨
    ∃ error, (options images demangles functionsOnly).foldlM takeArgument empty =
        .error (.error error) ∧ ∃ text ∈ images, (parseImage text).isOk = false := by
  have start : empty.unchecked = .nothing := rfl
  rw [options, List.foldlM_append, List.foldlM_append, foldlM_takeArgument_images start]
  rcases foldlM_addImage_cases start images with ⟨read, texts, all⟩ | ⟨error, failed, unreadable⟩
  · left
    refine ⟨read, texts, ?_⟩
    rw [all]
    cases demangles <;> cases functionsOnly <;>
      simp [bind, Except.bind, takeArgument_demangle, takeArgument_functionsOnly, empty, pure,
        Except.pure]
  · right
    refine ⟨error, ?_, unreadable⟩
    rw [failed]
    rfl

end Draft

theorem AddressTexts.noOptions {texts : List String} {addresses : List UInt64}
    (read : AddressTexts texts addresses) : ∀ text ∈ texts, text.toList.head? ≠ some '-' := by
  intro text member
  obtain ⟨address, readAddress⟩ := exists_of_forall₂ read member
  exact head?_ne_of_parseAddress readAddress

theorem hyphens_not_mem_arguments (images : List String) (demangles functionsOnly : Bool)
    {texts : List String} (noOptions : ∀ text ∈ texts, text.toList.head? ≠ some '-') :
    "--" ∉ arguments images demangles functionsOnly texts := by
  intro member
  simp only [arguments, options, List.mem_append, List.mem_map] at member
  rcases member with ((⟨image, _, same⟩ | flag) | flag) | address
  · have characters := congrArg String.toList same
    rw [String.toList_append] at characters
    exact absurd characters (by simp)
  · cases demangles <;> simp at flag
  · cases functionsOnly <;> simp at flag
  · exact noOptions "--" address rfl

theorem parse_of_options {images : List String} {demangles functionsOnly : Bool}
    {read : List ImageArgument}
    (taken : (options images demangles functionsOnly).foldlM Draft.takeArgument Draft.empty =
      .ok ⟨⟨read, [], demangles, functionsOnly⟩, .nothing⟩)
    {texts : List String} {addresses : List UInt64} (nonempty : texts ≠ [])
    (addressTexts : AddressTexts texts addresses) :
    Request.parse (arguments images demangles functionsOnly texts) =
      if read = [] then .error (.error .missingArguments)
      else .ok ⟨read, addresses, demangles, functionsOnly⟩ := by
  have noOptions := addressTexts.noOptions
  have plain := hyphens_not_mem_arguments images demangles functionsOnly noOptions
  let options : Draft := ⟨⟨read, [], demangles, functionsOnly⟩, .nothing⟩
  have settled : options.unchecked = .nothing := rfl
  have all : Draft.empty.takeAll (arguments images demangles functionsOnly texts) =
      .ok { options with unchecked := .addresses texts } := by
    rw [Draft.takeAll_eq_foldlM _ plain, arguments, List.foldlM_append, taken]
    exact Draft.foldlM_takeArgument_addresses nonempty settled noOptions
  have checked : Draft.check { options with unchecked := .addresses texts } =
      .ok { options with request.addresses := addresses } :=
    Draft.foldlM_addAddress addressTexts settled
  have someAddress : addresses ≠ [] := by
    rintro rfl
    cases addressTexts
    contradiction
  rw [Request.parse, all]
  change (Draft.check _ >>= _) = _
  rw [checked]
  by_cases noImage : read = [] <;>
    simp [options, noImage, someAddress, bind, Except.bind, pure, Except.pure, throw, throwThe,
      MonadExceptOf.throw]

/-- Either all of the command line is read for what it is, or what is wrong with the images is told
whatever the addresses are. -/
theorem parse_arguments_cases (images : List String) (demangles functionsOnly : Bool) :
    (∃ read, ImageTexts images read ∧ read ≠ [] ∧
      ∀ texts addresses, texts ≠ [] → AddressTexts texts addresses →
        Request.parse (arguments images demangles functionsOnly texts) =
          .ok ⟨read, addresses, demangles, functionsOnly⟩) ∨
    ∃ error, (images = [] ∨ ∃ text ∈ images, (parseImage text).isOk = false) ∧
      ∀ texts addresses, texts ≠ [] → AddressTexts texts addresses →
        Request.parse (arguments images demangles functionsOnly texts) = .error (.error error) := by
  rcases Draft.foldlM_takeArgument_options images demangles functionsOnly with
    ⟨read, imageTexts, taken⟩ | ⟨error, failed, unreadable⟩
  · by_cases noImage : read = []
    · right
      have noText : images = [] := by
        subst noImage
        cases imageTexts
        rfl
      refine ⟨.missingArguments, .inl noText, ?_⟩
      intro texts addresses nonempty addressTexts
      rw [parse_of_options taken nonempty addressTexts, if_pos noImage]
    · left
      refine ⟨read, imageTexts, noImage, ?_⟩
      intro texts addresses nonempty addressTexts
      rw [parse_of_options taken nonempty addressTexts, if_neg noImage]
  · right
    refine ⟨error, .inr unreadable, ?_⟩
    intro texts addresses _ addressTexts
    have plain := hyphens_not_mem_arguments images demangles functionsOnly addressTexts.noOptions
    rw [Request.parse, Draft.takeAll_eq_foldlM _ plain, arguments, List.foldlM_append, failed]
    rfl

end CommandLine

end Symbolization
