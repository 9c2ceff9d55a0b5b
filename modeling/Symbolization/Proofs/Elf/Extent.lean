import Mathlib.Data.UInt
import Symbolization.Image
import Symbolization.Proofs.Address.BoundingBox

/-!
# Where the code of an image lies

The extent of an image runs from the least address to the greatest end of what its file has in
memory, in whatever order the file tells it.  Adding the bias leads from on-disk addresses to
runtime addresses and back.  Addresses that would lie beyond the greatest one are cut off, they do
not start again from zero.
-/

namespace Symbolization

theorem toNat_addSaturating (address length : UInt64) :
    (addSaturating address length).toNat =
      min (address.toNat + length.toNat) (UInt64.size - 1) := by
  have inside := address.toNat_lt
  rw [addSaturating]
  split
  · rename_i fits
    rw [UInt64.toNat_add]
    simp only [UInt64.size] at fits ⊢
    omega
  · rename_i beyond
    have last : lastAddress.toNat = UInt64.size - 1 := rfl
    omega

namespace AddressInterval

theorem toNat_low_foldl_hull (first : AddressInterval) (intervals : List AddressInterval) :
    (intervals.foldl hull first).low.toNat =
      (intervals.map (·.low.toNat)).foldl min first.low.toNat := by
  induction intervals generalizing first with
  | nil => rfl
  | cons second intervals induction =>
      have merged : (first.hull second).low.toNat = min first.low.toNat second.low.toNat :=
        UInt64.toNat_min first.low second.low
      rw [List.foldl_cons, induction, merged, List.map_cons, List.foldl_cons]

theorem toNat_high_foldl_hull (first : AddressInterval) (intervals : List AddressInterval) :
    (intervals.foldl hull first).high.toNat =
      (intervals.map (·.high.toNat)).foldl max first.high.toNat := by
  induction intervals generalizing first with
  | nil => rfl
  | cons second intervals induction =>
      have merged : (first.hull second).high.toNat = max first.high.toNat second.high.toNat :=
        UInt64.toNat_max first.high second.high
      rw [List.foldl_cons, induction, merged, List.map_cons, List.foldl_cons]

theorem min?_map_low (intervals : List AddressInterval) :
    (intervals.map (·.low.toNat)).min? = (hull? intervals).map (·.low.toNat) := by
  cases intervals with
  | nil => rfl
  | cons first intervals =>
      rw [List.map_cons, List.min?_cons', hull?, Option.map_some, toNat_low_foldl_hull]

theorem max?_map_high (intervals : List AddressInterval) :
    (intervals.map (·.high.toNat)).max? = (hull? intervals).map (·.high.toNat) := by
  cases intervals with
  | nil => rfl
  | cons first intervals =>
      rw [List.map_cons, List.max?_cons', hull?, Option.map_some, toNat_high_foldl_hull]

end AddressInterval

namespace Elf

/-- A part of a file that has a place in memory. -/
structure MemoryPart where
  address : UInt64
  size : UInt64
  deriving DecidableEq

namespace MemoryPart

/-- The address behind the part, or the greatest address if that is less. -/
def behind (part : MemoryPart) : Nat :=
  min (part.address.toNat + part.size.toNat) (UInt64.size - 1)

def interval (part : MemoryPart) : AddressInterval :=
  ⟨part.address, addSaturating part.address part.size⟩

theorem toNat_high_interval (part : MemoryPart) : part.interval.high.toNat = part.behind :=
  toNat_addSaturating part.address part.size

theorem filterMap_ofStretch? {α : Type} (part : α → MemoryPart) (items : List α) :
    (items.filterMap fun item =>
        AddressInterval.ofStretch? (part item).address (part item).size) =
      ((items.map part).filter (·.size != 0)).map interval := by
  induction items with
  | nil => rfl
  | cons item items induction =>
      rw [List.filterMap_cons, induction, List.map_cons]
      by_cases empty : (part item).size = 0
      · simp [AddressInterval.ofStretch?, empty]
      · simp [AddressInterval.ofStretch?, empty, interval]

end MemoryPart

namespace File

/-- The segments that are loaded, without empty ones. -/
def loadedParts (file : File) : List MemoryPart :=
  ((file.segments.filter (·.kind == 1)).map fun segment =>
    ⟨segment.address, segment.size⟩).filter (·.size != 0)

/-- The sections that have an address other than zero, without empty ones.  The first entry of the
table stands for no section. -/
def placedParts (file : File) : List MemoryPart :=
  (((file.sections.drop 1).filter (·.address != 0)).map fun entry =>
    ⟨entry.address, .ofNat entry.size⟩).filter (·.size != 0)

/-- The parts that count: the segments, or the sections if there is no segment. -/
def memoryParts (file : File) : List MemoryPart :=
  if file.loadedParts.isEmpty then file.placedParts else file.loadedParts

end File

/-- The parts lie between `low` and `high`, and none of the two could be closer. -/
structure IsExtent (parts : List MemoryPart) (low high : Nat) : Prop where
  low_mem : ∃ part ∈ parts, part.address.toNat = low
  low_le : ∀ part ∈ parts, low ≤ part.address.toNat
  high_mem : ∃ part ∈ parts, part.behind = high
  le_high : ∀ part ∈ parts, part.behind ≤ high

namespace IsExtent

variable {parts : List MemoryPart} {low high : Nat}

theorem low_le_high (isExtent : IsExtent parts low high) : low ≤ high := by
  obtain ⟨part, member, rfl⟩ := isExtent.low_mem
  have inside := part.address.toNat_lt
  have bound := isExtent.le_high part member
  simp only [MemoryPart.behind, UInt64.size] at bound
  omega

theorem unique {other last : Nat} (isExtent : IsExtent parts low high)
    (otherExtent : IsExtent parts other last) : low = other ∧ high = last := by
  obtain ⟨first, firstMember, rfl⟩ := isExtent.low_mem
  obtain ⟨second, secondMember, rfl⟩ := otherExtent.low_mem
  obtain ⟨third, thirdMember, rfl⟩ := isExtent.high_mem
  obtain ⟨fourth, fourthMember, rfl⟩ := otherExtent.high_mem
  constructor
  · exact Nat.le_antisymm (isExtent.low_le second secondMember)
      (otherExtent.low_le first firstMember)
  · exact Nat.le_antisymm (otherExtent.le_high third thirdMember)
      (isExtent.le_high fourth fourthMember)

theorem of_hull? {box : AddressInterval}
    (found : AddressInterval.hull? (parts.map MemoryPart.interval) = some box) :
    IsExtent parts box.low.toNat box.high.toNat := by
  have least := AddressInterval.min?_map_low (parts.map MemoryPart.interval)
  have greatest := AddressInterval.max?_map_high (parts.map MemoryPart.interval)
  rw [found, Option.map_some, List.min?_eq_some_iff] at least
  rw [found, Option.map_some, List.max?_eq_some_iff] at greatest
  simp only [List.map_map, List.mem_map, Function.comp_apply, forall_exists_index, and_imp,
    forall_apply_eq_imp_iff₂, MemoryPart.toNat_high_interval] at least greatest
  exact ⟨least.1, least.2, greatest.1, greatest.2⟩

end IsExtent

namespace File

theorem extent?_eq (file : File) :
    file.extent? = AddressInterval.hull? (file.memoryParts.map MemoryPart.interval) := by
  have segments : file.segmentStretches = file.loadedParts.map MemoryPart.interval :=
    MemoryPart.filterMap_ofStretch? (fun segment : Segment => ⟨segment.address, segment.size⟩) _
  have sections : file.sectionStretches = file.placedParts.map MemoryPart.interval :=
    MemoryPart.filterMap_ofStretch? (fun entry : Section => ⟨entry.address, .ofNat entry.size⟩) _
  rw [extent?, segments, sections, memoryParts]
  cases file.loadedParts with
  | nil => rfl
  | cons part parts => rfl

theorem isExtent_of_extent? {file : File} {box : AddressInterval}
    (found : file.extent? = some box) :
    IsExtent file.memoryParts box.low.toNat box.high.toNat :=
  .of_hull? (file.extent?_eq ▸ found)

end File

end Elf

namespace Image

/-- The image holds the runtime addresses of the on-disk ones from `low` up to, but not including,
`high`, as far as they lie below the greatest address when they are counted from its start on. -/
structure Spans (image : Image) (low high : Nat) : Prop where
  ordered : low ≤ high
  start : image.start.toNat = (low + image.bias.toNat) % UInt64.size
  length : image.length.toNat = high - low
  has_iff : ∀ onDisk : UInt64, image.has (onDisk + image.bias) ↔
    low ≤ onDisk.toNat ∧ onDisk.toNat < high ∧
      image.start.toNat + (onDisk.toNat - low) < UInt64.size - 1
  onDisk_mem : ∀ address, image.has address →
    low ≤ (image.onDisk address).toNat ∧ (image.onDisk address).toNat < high

theorem has_iff_toNat {image : Image} {address : UInt64} :
    image.has address ↔ image.start.toNat ≤ address.toNat ∧
      address.toNat < min (image.start.toNat + image.length.toNat) (UInt64.size - 1) := by
  rw [← toNat_addSaturating, ← UInt64.le_iff_toNat_le, ← UInt64.lt_iff_toNat_lt]
  exact AddressInterval.contains_iff

theorem onDisk_add (image : Image) (address : UInt64) :
    image.onDisk address + image.bias = address :=
  UInt64.sub_add_cancel address image.bias

theorem spans {image : Image} {low high : UInt64} (ordered : low ≤ high)
    (start : image.start = image.bias + low) (length : image.length = high - low) :
    image.Spans low.toNat high.toNat := by
  have lengthNat : image.length.toNat = high.toNat - low.toNat := by
    rw [length, UInt64.toNat_sub_of_le high low ordered]
  have startNat : image.start.toNat = (low.toNat + image.bias.toNat) % UInt64.size := by
    rw [start, UInt64.toNat_add, Nat.add_comm]
  have has_iff : ∀ onDisk : UInt64, image.has (onDisk + image.bias) ↔
      low.toNat ≤ onDisk.toNat ∧ onDisk.toNat < high.toNat ∧
        image.start.toNat + (onDisk.toNat - low.toNat) < UInt64.size - 1 := by
    intro onDisk
    have lowInside := low.toNat_lt
    have highInside := high.toNat_lt
    have biasInside := image.bias.toNat_lt
    have inside := onDisk.toNat_lt
    rw [UInt64.le_iff_toNat_le] at ordered
    rw [has_iff_toNat, lengthNat, startNat, UInt64.toNat_add]
    simp only [UInt64.size]
    omega
  refine ⟨UInt64.le_iff_toNat_le.mp ordered, startNat, lengthNat, has_iff, ?_⟩
  intro address held
  rw [← image.onDisk_add address, has_iff] at held
  exact ⟨held.1, held.2.1⟩

theorem spans_of_ofFile {name : String} {bias : UInt64} {file : Elf.File} {image : Image}
    (made : ofFile name bias file = .ok image) :
    image.bias = bias ∧ (∃ low high, Elf.IsExtent file.memoryParts low high) ∧
      ∀ low high, Elf.IsExtent file.memoryParts low high → image.Spans low high := by
  cases found : file.extent? with
  | none => simp [ofFile, found] at made
  | some box =>
      have isExtent := file.isExtent_of_extent? found
      have ordered : box.low ≤ box.high := UInt64.le_iff_toNat_le.mpr isExtent.low_le_high
      simp only [ofFile, found, Except.ok.injEq] at made
      subst made
      refine ⟨rfl, ⟨_, _, isExtent⟩, ?_⟩
      intro low high otherExtent
      obtain ⟨rfl, rfl⟩ := otherExtent.unique isExtent
      exact spans ordered rfl rfl

theorem exists_file_of_load {files : FileSource} {path : FilePath} {bias : UInt64} {image : Image}
    (loaded : load files path bias = .ok image) :
    ∃ bytes file, files path = .ok bytes ∧ Elf.File.parse bytes = .ok file ∧
      ofFile path.told bias file = .ok image := by
  unfold load at loaded
  split at loaded
  · contradiction
  · rename_i bytes found
    split at loaded
    · contradiction
    · split at loaded
      · contradiction
      · rename_i file parsed
        exact ⟨bytes, file, found, parsed, loaded⟩

/-- An image that is read from a file spans the extent of what the file has in memory. -/
theorem spans_of_load {files : FileSource} {path : FilePath} {bias : UInt64} {image : Image}
    (loaded : load files path bias = .ok image) :
    ∃ bytes file, files path = .ok bytes ∧ Elf.File.parse bytes = .ok file ∧ image.bias = bias ∧
      (∃ low high, Elf.IsExtent file.memoryParts low high) ∧
        ∀ low high, Elf.IsExtent file.memoryParts low high → image.Spans low high := by
  obtain ⟨bytes, file, found, parsed, made⟩ := exists_file_of_load loaded
  exact ⟨bytes, file, found, parsed, spans_of_ofFile made⟩

end Image

/-! A file with two segments, the later one first, and an empty one. -/

namespace Elf

/-- A segment that is loaded.  Address and size are given by their second bytes. -/
def segmentEntry (address size : UInt8) : List UInt8 :=
  [1, 0, 0, 0, 5, 0, 0, 0, 0, 0, 0, 0, 0, 0, 0, 0, 0, address, 0, 0, 0, 0, 0, 0,
    0, address, 0, 0, 0, 0, 0, 0, 0, size, 0, 0, 0, 0, 0, 0, 0, size, 0, 0, 0, 0, 0, 0,
    0, 0x10, 0, 0, 0, 0, 0, 0]

def segmentFile : ByteArray :=
  ⟨([0x7f, 0x45, 0x4c, 0x46, 2, 1, 1, 0, 0, 0, 0, 0, 0, 0, 0, 0, 3, 0, 0x3e, 0, 1, 0, 0, 0,
      0, 0, 0, 0, 0, 0, 0, 0, 64, 0, 0, 0, 0, 0, 0, 0, 0, 0, 0, 0, 0, 0, 0, 0,
      0, 0, 0, 0, 64, 0, 56, 0, 3, 0, 64, 0, 0, 0, 0, 0] ++
    segmentEntry 0x30 0x10 ++ segmentEntry 0x10 0x05 ++ segmentEntry 0 0).toArray⟩

theorem memoryParts_segmentFile {file : File} (parsed : File.parse segmentFile = .ok file) :
    file.memoryParts = [⟨0x3000, 0x1000⟩, ⟨0x1000, 0x500⟩] := by
  have parts : (File.parse segmentFile).toOption.map (·.memoryParts) =
      some [⟨0x3000, 0x1000⟩, ⟨0x1000, 0x500⟩] := by
    decide +kernel
  rw [parsed] at parts
  exact Option.some.inj parts

end Elf

namespace Image

/-- A bias of -0x2000 takes the start of the file to the last page.  The last address of this page
and all that is behind it do not belong to the image. -/
theorem spans_segmentFile :
    ∃ image, load (fun _ => .ok Elf.segmentFile) "libfoo.so" 0xffffffffffffe000 = .ok image ∧
      image.Spans 0x1000 0x4000 ∧ image.has 0xffffffffffffff00 ∧
        image.has 0xffffffffffffffff = false ∧ image.has 0x1000 = false := by
  cases loaded : load (fun _ => .ok Elf.segmentFile) "libfoo.so" 0xffffffffffffe000 with
  | error error =>
      have isOk : (load (fun _ => .ok Elf.segmentFile) "libfoo.so" 0xffffffffffffe000).isOk := by
        decide +kernel
      rw [loaded] at isOk
      exact absurd isOk Bool.false_ne_true
  | ok image =>
      obtain ⟨bytes, file, found, parsed, bias, _, spans⟩ := spans_of_load loaded
      have same : Elf.segmentFile = bytes := Except.ok.inj found
      subst same
      have isExtent : Elf.IsExtent file.memoryParts 0x1000 0x4000 := by
        rw [Elf.memoryParts_segmentFile parsed]
        exact ⟨by decide, by decide, by decide, by decide⟩
      have spanned := spans 0x1000 0x4000 isExtent
      have start : image.start.toNat = 0xfffffffffffff000 := by
        rw [spanned.start, bias]
        rfl
      have last : image.start.toNat + image.length.toNat = 0x10000000000002000 := by
        rw [start, spanned.length]
      refine ⟨image, rfl, spanned, ?_, ?_, ?_⟩
      · rw [has_iff_toNat, last, start]
        decide
      · rw [← Bool.not_eq_true, has_iff_toNat, last, start]
        decide
      · rw [← Bool.not_eq_true, has_iff_toNat, last, start]
        decide

end Image

end Symbolization
