import Symbolization.Proofs.Address.BoundingBox
import Symbolization.Proofs.Session.Orderly
import Mathlib.Data.List.Pairwise

/-!
# The end of a batch

The end of a batch registers what its reports stand for, in the order of the starts, and nothing
else.  Only neighbours are compared for overlaps.  In that order it is enough: where every image
ends before the next one starts, no two of them share an address.
-/

namespace Symbolization

def Image.Shares (first second : Image) : Prop :=
  ∃ address, first.has address ∧ second.has address

theorem Image.has_iff {image : Image} {address : UInt64} :
    image.has address ↔ image.start ≤ address ∧ address < image.endAddress :=
  AddressInterval.contains_iff

theorem Image.Shares.symm {first second : Image} (shares : first.Shares second) :
    second.Shares first := by
  obtain ⟨address, inFirst, inSecond⟩ := shares
  exact ⟨address, inSecond, inFirst⟩

theorem Image.not_shares_of_le {first second : Image}
    (apart : first.endAddress ≤ second.start) : ¬ first.Shares second := by
  rintro ⟨address, inFirst, inSecond⟩
  have below : address < first.endAddress := (has_iff.mp inFirst).2
  have above : second.start ≤ address := (has_iff.mp inSecond).1
  exact UInt64.not_le.mpr below (UInt64.le_trans apart above)

namespace ImageSession

variable {session : ImageSession}

theorem pairwise_of_overlap? {entries : List RegisteredImage}
    (sorted : entries.Pairwise fun first second => first.image.start ≤ second.image.start)
    (clear : overlap? entries = none) :
    entries.Pairwise fun first second => first.image.endAddress ≤ second.image.start := by
  fun_induction overlap? entries with
  | case1 first second rest overlaps => contradiction
  | case2 first second rest apart induction =>
      have ends : first.image.endAddress ≤ second.image.start := UInt64.not_lt.mp apart
      have sortedBelow := List.pairwise_cons.mp (List.pairwise_cons.mp sorted).2
      refine List.pairwise_cons.mpr ⟨?_, induction (List.pairwise_cons.mp sorted).2 clear⟩
      intro later member
      rcases List.mem_cons.mp member with rfl | below
      · exact ends
      · exact UInt64.le_trans ends (sortedBelow.1 later below)
  | case3 entries short =>
      match entries with
      | [] => exact .nil
      | [entry] => exact List.pairwise_singleton _ entry
      | first :: second :: rest => exact absurd rfl (short first second rest)

theorem infix_of_overlap? {entries : List RegisteredImage} {first second : RegisteredImage}
    (found : overlap? entries = some (first, second)) :
    [first, second] <:+: entries ∧ second.image.start < first.image.endAddress := by
  fun_induction overlap? entries with
  | case1 left right rest overlaps =>
      cases found
      exact ⟨⟨[], rest, rfl⟩, overlaps⟩
  | case2 left right rest apart induction =>
      obtain ⟨inside, overlaps⟩ := induction found
      exact ⟨inside.trans (List.suffix_cons left _).isInfix, overlaps⟩
  | case3 entries short => contradiction

/-- The second of two images follows the first and starts before its end. -/
structure RunsInto (entries : List RegisteredImage) (first second : RegisteredImage) : Prop where
  neighbours : [first, second] <:+: entries
  ordered : first.image.start ≤ second.image.start
  overlaps : second.image.start < first.image.endAddress

/-- What the end of a batch does, whether it succeeds or not. -/
structure Commits (session : ImageSession) (batch : List Reported) : Prop where
  closed : session.reportEnd.2.batch = none
  registers : ∃ entries,
    List.Forall₂ (fun reported entry => standsFor? session.modules reported = some entry) batch
      entries ∧
    (entries.map (·.handle)).Nodup ∧
    StablySorted RegisteredImage.start entries session.reportEnd.2.modules
  overlap_found : ∀ first ∈ session.reportEnd.2.modules, ∀ second ∈ session.reportEnd.2.modules,
    first.handle ≠ second.handle → first.image.Shares second.image →
      ∃ firstName secondName,
        session.reportEnd.1 = .error (.overlappingModules firstName secondName)
  overlap_named : ∀ error, session.reportEnd.1 = .error error →
    ∃ first second, RunsInto session.reportEnd.2.modules first second ∧
      error = .overlappingModules first.image.name second.image.name

theorem reportEnd_of_clear {batch : List Reported} (isOpen : session.batch = some batch)
    (clear : overlap? (session.commit batch) = none) : session.reportEnd.1 = .ok () := by
  simp [reportEnd, isOpen, clear]

theorem reportEnd_of_overlap {batch : List Reported} (isOpen : session.batch = some batch)
    {first second : RegisteredImage}
    (found : overlap? (session.commit batch) = some (first, second)) :
    session.reportEnd.1 =
      .error (.overlappingModules first.image.name second.image.name) := by
  simp [reportEnd, isOpen, found]

theorem registers_commit (orderly : session.Orderly) {batch : List Reported}
    (isOpen : session.batch = some batch) :
    ∃ entries,
      List.Forall₂ (fun reported entry => standsFor? session.modules reported = some entry) batch
        entries ∧
      (entries.map (·.handle)).Nodup ∧
      StablySorted RegisteredImage.start entries (session.commit batch) := by
  have inBatch := orderly.batch batch isOpen
  refine ⟨moveOver session.modules batch, inBatch.forall₂_moveOver orderly.distinct, ?_, ?_⟩
  · rw [inBatch.map_handle_moveOver orderly.distinct]
    exact inBatch.once
  · exact session.stablySorted_commit batch

/-- Images that are no neighbours are compared with those between them. -/
theorem exists_overlap? {entries : List RegisteredImage}
    (sorted : entries.Pairwise fun first second => first.image.start ≤ second.image.start)
    {first second : RegisteredImage} (firstMember : first ∈ entries)
    (secondMember : second ∈ entries) (different : first.handle ≠ second.handle)
    (shares : first.image.Shares second.image) :
    ∃ left right, overlap? entries = some (left, right) := by
  cases found : overlap? entries with
  | some pair => exact ⟨pair.1, pair.2, rfl⟩
  | none =>
      have apart : entries.Pairwise fun first second => ¬ first.image.Shares second.image :=
        (pairwise_of_overlap? sorted found).imp Image.not_shares_of_le
      have notSame : first ≠ second := by
        rintro rfl
        exact different rfl
      have symmetric : Std.Symm fun first second : RegisteredImage =>
          ¬ first.image.Shares second.image :=
        ⟨fun _ _ disjoint shares => disjoint shares.symm⟩
      exact absurd shares (apart.forall firstMember secondMember notSame)

/-- The end of a batch registers the images of its reports, each of them once, in the order of their
starts; images that share an address are not missed, and those that it names do overlap. -/
theorem commits_of_reachable (reachable : session.Reachable) {batch : List Reported}
    (isOpen : session.batch = some batch) : session.Commits batch := by
  have orderly := reachable.orderly
  have sorted := (session.stablySorted_commit batch).ascending
  have next := reportEnd_snd isOpen
  refine ⟨?_, ?_, ?_, ?_⟩
  · rw [next]
  · rw [next]
    exact registers_commit orderly isOpen
  · rw [next]
    intro first firstMember second secondMember different shares
    obtain ⟨left, right, found⟩ :=
      exists_overlap? sorted firstMember secondMember different shares
    exact ⟨_, _, reportEnd_of_overlap isOpen found⟩
  · rw [next]
    intro error failed
    cases found : overlap? (session.commit batch) with
    | none =>
        rw [reportEnd_of_clear isOpen found] at failed
        contradiction
    | some pair =>
        obtain ⟨left, right⟩ := pair
        rw [reportEnd_of_overlap isOpen found] at failed
        obtain ⟨neighbours, overlaps⟩ := infix_of_overlap? found
        have ordered := List.pairwise_pair.mp (sorted.sublist neighbours.sublist)
        exact ⟨left, right, ⟨neighbours, ordered, overlaps⟩, (Except.error.inj failed).symm⟩

/-- A small image was given for the open batch, a large one that holds it was kept, and another
small one in it was given behind them. -/
def withNestedImages : ImageSession :=
  run (.new fun _ => .error .notFound)
    [.reportBegin, .reportImage (bareImage "libfoo.so" 0x1000 0x1000), .reportEnd, .reportBegin,
      .reportImage (bareImage "libbaz.so" 0x1900 0x10), .reportModule "libfoo.so" 0x1000,
      .reportImage (bareImage "libbar.so" 0x1800 0x10)]

def nestedBatch : List Reported :=
  [.loaded ⟨⟨2⟩, bareImage "libbaz.so" 0x1900 0x10⟩, .kept ⟨1⟩,
    .loaded ⟨⟨3⟩, bareImage "libbar.so" 0x1800 0x10⟩]

theorem commits_withNestedImages :
    withNestedImages.Commits nestedBatch ∧
      withNestedImages.reportEnd.1 = .error (.overlappingModules "libfoo.so" "libbar.so") ∧
      withNestedImages.reportEnd.2.modules.map (·.handle) = [⟨1⟩, ⟨3⟩, ⟨2⟩] := by
  have commits := commits_of_reachable
    ((Reachable.new fun _ => .error .notFound).run
      [.reportBegin, .reportImage (bareImage "libfoo.so" 0x1000 0x1000), .reportEnd, .reportBegin,
        .reportImage (bareImage "libbaz.so" 0x1900 0x10), .reportModule "libfoo.so" 0x1000,
        .reportImage (bareImage "libbar.so" 0x1800 0x10)])
    (show withNestedImages.batch = some nestedBatch by cbv)
  exact ⟨commits, by cbv, by cbv⟩

end ImageSession

end Symbolization
