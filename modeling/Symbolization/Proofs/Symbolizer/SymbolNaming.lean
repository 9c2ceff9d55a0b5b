import Mathlib
import Symbolization.Proofs.Session.DebugChange
import Symbolization.Proofs.Session.Registration
import Symbolization.Proofs.Symbolizer.Resolution
import Symbolization.Proofs.Symbolizer.Run

/-!
# What debug data cannot change

Debug data adds frames to an answer and places to its frames.  Which images are registered, and of
an answer the module, the offsets and the name of the function that holds the address, come from the
rest of a file.  They are the same whatever the debug data is, even where it cannot be read.
-/

namespace Symbolization

namespace ResolvedLocation

/-- The name of the function that holds the code, if there is a frame for it. -/
def functionName (location : ResolvedLocation) : Option String :=
  location.frames.getLast?.map (·.name)

/-- The locations are the same but for what debug data tells about them. -/
structure SameFunction (left right : ResolvedLocation) : Prop where
  moduleName : right.moduleName = left.moduleName
  moduleOffset : right.moduleOffset = left.moduleOffset
  symbolOffset : right.symbolOffset = left.symbolOffset
  functionName : right.functionName = left.functionName

theorem SameFunction.refl (location : ResolvedLocation) : location.SameFunction location :=
  ⟨rfl, rfl, rfl, rfl⟩

end ResolvedLocation

namespace DebugView

/-- The function is named after the symbol, whatever else is known. -/
theorem functionName_location (view : DebugView) (module : ModuleHandle) (info : ModuleInfo)
    (unit : Option OwnedUnit) (address : UInt64) :
    (view.location module info unit address).functionName =
      some ((view.nearestSymbol module address).getD ⟨unknownText, 0⟩).name := by
  obtain ⟨inlined, last, split, _, _, named, _⟩ :=
    view.frames_split ((view.nearestSymbol module address).getD ⟨unknownText, 0⟩).name unit address
  rw [ResolvedLocation.functionName, location, split, List.getLast?_concat, Option.map_some, named]

/-- Locations are the same but for debug data where the symbol is the same. -/
theorem sameFunction_location {left right : DebugView} {module : ModuleHandle} {address : UInt64}
    (nearest : right.nearestSymbol module address = left.nearestSymbol module address)
    (info : ModuleInfo) (unit other : Option OwnedUnit) :
    (left.location module info unit address).SameFunction
      (right.location module info other address) where
  moduleName := rfl
  moduleOffset := rfl
  symbolOffset := by simp only [location, nearest]
  functionName := by rw [functionName_location, functionName_location, nearest]

end DebugView

namespace ImageSession.DebugChange

variable {left right : ImageSession} (change : left.DebugChange right)
include change

theorem moduleInfo_eq (module : ModuleHandle) :
    right.view.moduleInfo module = left.view.moduleInfo module := by
  have images := congrArg (Option.map fun image : Image => (⟨image.name, image.start⟩ : ModuleInfo))
    (change.image?_eq module)
  rwa [Option.map_map, Option.map_map] at images

theorem nearestSymbol_eq (module : ModuleHandle) (address : UInt64) :
    right.view.nearestSymbol module address = left.view.nearestSymbol module address := by
  have images := congrArg (Option.bind · fun image : Image =>
    (image.nearest? address).bind fun symbol =>
      some (⟨symbol.name, image.onDisk address - symbol.address⟩ : NearestSymbol))
    (change.image?_eq module)
  simp only [Option.bind_map] at images
  exact images

end ImageSession.DebugChange

/-- The operations are the same, except that files may be replaced by ones with other debug data. -/
inductive Operation.DebugChange : Operation ImageSession → Operation ImageSession → Prop where
  | same (operation : Operation ImageSession) : DebugChange operation operation
  | surround {files others : FileSource} :
      files.DebugChange others → DebugChange (.surround files) (.surround others)

namespace Symbolizer

theorem resolve_keeps (symbolizer : Symbolizer ImageSession) (address : UInt64) :
    (symbolizer.resolve address).2.2.session = symbolizer.session ∧
      (symbolizer.resolve address).2.2.state = symbolizer.state := by
  obtain same | ⟨module, built⟩ := resolve_next symbolizer address
  · rw [same]
    exact ⟨rfl, rfl⟩
  · rw [built.next]
    exact ⟨ite_self symbolizer.session, rfl⟩

/-- The symbolizers are in the same state, and their images differ in debug data only.  The indexes
are made from debug data and may be any. -/
structure DebugChange (left right : Symbolizer ImageSession) : Prop where
  session : left.session.DebugChange right.session
  state : right.state = left.state

/-- The symbolizers take reports with the same outcome and find the same functions. -/
structure SameFunctions (left right : Symbolizer ImageSession) : Prop where
  reportModule : ∀ path loadAddress, (right.session.reportModule path loadAddress).1 =
    (left.session.reportModule path loadAddress).1
  reportEnd : right.session.reportEnd.1 = left.session.reportEnd.1
  resolve : ∀ address, (left.resolve address).1.SameFunction (right.resolve address).1

namespace DebugChange

variable {left right : Symbolizer ImageSession} (change : left.DebugChange right)
include change

theorem resolve (address : UInt64) :
    (left.resolve address).1.SameFunction (right.resolve address).1 := by
  by_cases ready : left.state = .ready
  · have otherReady : right.state = .ready := change.state.trans ready
    have moduleAt : right.view.moduleAt address = left.view.moduleAt address :=
      change.session.moduleAt_eq address
    cases found : left.view.moduleAt address with
    | none =>
        simp only [Symbolizer.resolve, ready, otherReady, if_true, moduleAt, found]
        exact .refl _
    | some module =>
        have moduleInfo : right.view.moduleInfo module = left.view.moduleInfo module :=
          change.session.moduleInfo_eq module
        have nearest : right.view.nearestSymbol module address =
            left.view.nearestSymbol module address :=
          change.session.nearestSymbol_eq module address
        rw [found] at moduleAt
        cases known : left.view.moduleInfo module with
        | none =>
            rw [known] at moduleInfo
            simp only [Symbolizer.resolve, ready, otherReady, if_true, moduleAt, found, moduleInfo,
              known]
            exact .refl _
        | some info =>
            rw [known] at moduleInfo
            rw [resolve_of_known ready found known,
              resolve_of_known otherReady moduleAt moduleInfo]
            exact DebugView.sameFunction_location nearest info _ _
  · have notReady : ¬ right.state = .ready := fun other => ready (change.state.symm.trans other)
    simp only [Symbolizer.resolve, if_neg ready, if_neg notReady]
    exact .refl _

theorem perform {operation other : Operation ImageSession} (same : operation.DebugChange other) :
    (left.perform operation).DebugChange (right.perform other) := by
  cases same with
  | surround files => exact ⟨change.session.replaceFiles files, change.state⟩
  | same =>
      cases operation with
      | beginReport => exact ⟨change.session.reportBegin, rfl⟩
      | report path loadAddress =>
          rw [Symbolizer.perform, report_snd, Symbolizer.perform, report_snd, change.state]
          split
          · exact ⟨(change.session.reportModule path loadAddress).2, rfl⟩
          · exact change
      | endReport =>
          rw [Symbolizer.perform, endReport_snd, Symbolizer.perform, endReport_snd, change.state]
          split
          · exact ⟨change.session.reportEnd.2, rfl⟩
          · exact change
      | resolve address =>
          obtain ⟨session, state⟩ := resolve_keeps left address
          obtain ⟨otherSession, otherState⟩ := resolve_keeps right address
          refine ⟨?_, ?_⟩
          · rw [Symbolizer.perform, Symbolizer.perform, session, otherSession]
            exact change.session
          · rw [Symbolizer.perform, Symbolizer.perform, state, otherState]
            exact change.state
      | surround files => exact ⟨change.session.replaceFiles (.refl files), change.state⟩

theorem run {operations others : List (Operation ImageSession)}
    (same : List.Forall₂ Operation.DebugChange operations others) :
    (left.run operations).DebugChange (right.run others) := by
  induction same generalizing left right with
  | nil => exact change
  | cons first _ induction => exact induction (change.perform first)

theorem sameFunctions : left.SameFunctions right where
  reportModule path loadAddress := (change.session.reportModule path loadAddress).1
  reportEnd := change.session.reportEnd.1
  resolve := change.resolve

end DebugChange

/-- In runs over images that differ in debug data only, every report has the same outcome and every
address the same function. -/
theorem sameFunctions_of_debugChange {left right : ImageSession} (change : left.DebugChange right)
    {operations others : List (Operation ImageSession)}
    (same : List.Forall₂ Operation.DebugChange operations others) :
    ((new left).run operations).SameFunctions ((new right).run others) := by
  have start : (new left).DebugChange (new right) := ⟨change, rfl⟩
  exact (start.run same).sameFunctions

end Symbolizer

/-! A file with a routine at 0x1000.  Its debug data tells of an inlined call in the routine.  The
name of the routine is in a section for texts of debug data as well. -/

namespace Elf

/-- An entry of a table of sections, at an offset of two bytes. -/
def sectionEntry (name kind low high size link : UInt8) : List UInt8 :=
  [name, 0, 0, 0, kind, 0, 0, 0, 0, 0, 0, 0, 0, 0, 0, 0, low, high, 0, 0, size, 0, 0, 0,
    link, 0, 0, 0, 0, 0, 0, 0, 0, 0, 0, 0, 0, 0, 0, 0]

/-- Header, segment and sections, the symbols and the names of the sections. -/
def debugFileTables : List UInt8 :=
  [0x7f, 0x45, 0x4c, 0x46, 1, 1, 1, 0, 0, 0, 0, 0, 0, 0, 0, 0,
    3, 0, 3, 0, 1, 0, 0, 0, 0, 0, 0, 0, 52, 0, 0, 0, 84, 0, 0, 0, 0, 0, 0, 0,
    52, 0, 32, 0, 1, 0, 40, 0, 6, 0, 2, 0,
    1, 0, 0, 0, 0, 0, 0, 0, 0, 0x10, 0, 0, 0, 0x10, 0, 0, 0xc1, 1, 0, 0, 0, 0x10, 0, 0,
    5, 0, 0, 0, 0, 0x10, 0, 0] ++
  sectionEntry 0 0 0 0 0 0 ++ sectionEntry 0 2 0x44 1 32 5 ++ sectionEntry 0 3 0x64 1 38 0 ++
  sectionEntry 1 1 0x8a 1 24 0 ++ sectionEntry 15 1 0xa2 1 26 0 ++
  sectionEntry 27 3 0xbc 1 5 0 ++
  [0, 0, 0, 0, 0, 0, 0, 0, 0, 0, 0, 0, 0, 0, 0, 0,
    1, 0, 0, 0, 0, 0x10, 0, 0, 0x40, 0, 0, 0, 0x12, 0, 1, 0] ++
  "\x00.debug_abbrev\x00.debug_info\x00.debug_str\x00".toUTF8.toList

/-- The file with such entries of debug data and texts. -/
def debugFile (entries texts : List UInt8) : ByteArray :=
  ⟨(debugFileTables ++ entries ++ texts).toArray⟩

/-- Abbreviations, and a unit with a routine in which there is an inlined call. -/
def inlinedEntries : List UInt8 :=
  [1, 0x11, 1, 0, 0, 2, 0x2e, 1, 0x11, 1, 0x12, 0x0b, 0, 0, 3, 0x1d, 0, 0x11, 1, 0x12, 0x0b, 0, 0,
    0, 22, 0, 0, 0, 4, 0, 0, 0, 0, 0, 4, 1, 2, 0, 0x10, 0, 0, 0x40, 3, 0, 0x10, 0, 0, 0x20, 0, 0]

def brokenEntries : List UInt8 := List.replicate 50 0xff

def fooTexts : List UInt8 := [0, 0x66, 0x6f, 0x6f, 0]

def barTexts : List UInt8 := [0, 0x62, 0x61, 0x72, 0]

theorem length_debugFileTables : debugFileTables.length = 394 := by decide +kernel

theorem getElem?_debugFile (entries texts : List UInt8) (place : Nat) :
    (debugFile entries texts)[place]? = (debugFileTables ++ entries ++ texts)[place]? := by
  have size : (debugFile entries texts).size = (debugFileTables ++ entries ++ texts).length := rfl
  by_cases inside : place < (debugFileTables ++ entries ++ texts).length
  · rw [getElem?_pos (debugFile entries texts) place (size ▸ inside),
      List.getElem?_eq_getElem inside]
    rfl
  · rw [getElem?_neg (debugFile entries texts) place (size ▸ inside),
      List.getElem?_eq_none (Nat.not_lt.mp inside)]

theorem getElem?_debugFile_of_lt {entries other texts otherTexts : List UInt8} {place : Nat}
    (before : place < 394) :
    (debugFile entries texts)[place]? = (debugFile other otherTexts)[place]? := by
  have inside : place < debugFileTables.length := length_debugFileTables ▸ before
  rw [getElem?_debugFile, getElem?_debugFile, List.append_assoc, List.append_assoc,
    List.getElem?_append_left inside, List.getElem?_append_left inside]

theorem getElem?_debugFile_of_le {entries other texts : List UInt8} {place : Nat}
    (length : other.length = entries.length) (behind : 394 + entries.length ≤ place) :
    (debugFile entries texts)[place]? = (debugFile other texts)[place]? := by
  have first : (debugFileTables ++ entries).length = 394 + entries.length := by
    rw [List.length_append, length_debugFileTables]
  have second : (debugFileTables ++ other).length = 394 + entries.length := by
    rw [List.length_append, length_debugFileTables, length]
  rw [getElem?_debugFile, getElem?_debugFile, List.getElem?_append_right (first ▸ behind),
    List.getElem?_append_right (second ▸ behind), first, second]

def debugFileSections : List Section :=
  [⟨0, 0, 0, 0, 0, 0, 0⟩, ⟨0, 2, 0, 324, 32, 5, 0⟩, ⟨0, 3, 0, 356, 38, 0, 0⟩,
    ⟨1, 1, 0, 394, 24, 0, 0⟩, ⟨15, 1, 0, 418, 26, 0, 0⟩, ⟨27, 3, 0, 444, 5, 0, 0⟩]

set_option maxRecDepth 4000 in
theorem identify_debugFile :
    Contents.identify (debugFile inlinedEntries fooTexts) =
      .ok ⟨debugFile inlinedEntries fooTexts, .four, .little⟩ := by
  cbv

def debugFileOutline : Outline (debugFile inlinedEntries fooTexts) where
  contents := ⟨debugFile inlinedEntries fooTexts, .four, .little⟩
  header := ⟨52, 84, 32, 1, 40, 6, 2⟩
  sections := debugFileSections
  names := some ⟨356, 394⟩
  identify_eq := identify_debugFile
  header_eq := by decide +kernel
  sections_eq := by decide +kernel
  names_eq := by decide +kernel

theorem isDebug_debugFileOutline {entry : Section} (member : entry ∈ debugFileSections.drop 3) :
    debugFileOutline.IsDebug entry := by
  have named : ∀ entry ∈ debugFileSections.drop 3,
      ((debugFileOutline.names.bind fun names =>
        names.text? debugFileOutline.contents entry.name).any
          (Outline.debugPrefix.isPrefixOf ·)) = true := by
    decide +kernel
  obtain ⟨name, known, starts⟩ := (Option.any_eq_true _ _).mp (named entry member)
  exact ⟨name, known, List.isPrefixOf_iff_prefix.mp starts⟩

theorem inDebugData_debugFileOutline {place : Nat} (behind : 394 ≤ place) (before : place < 449) :
    debugFileOutline.InDebugData place where
  held := by
    change ∃ entry ∈ debugFileSections, entry.Holds place
    rcases Nat.lt_or_ge place 418 with first | second
    · exact ⟨⟨1, 1, 0, 394, 24, 0, 0⟩, by decide, by decide, behind, first⟩
    · rcases Nat.lt_or_ge place 444 with second' | third
      · exact ⟨⟨15, 1, 0, 418, 26, 0, 0⟩, by decide, by decide, second, second'⟩
      · exact ⟨⟨27, 3, 0, 444, 5, 0, 0⟩, by decide, by decide, third, before⟩
  debug entry member held := by
    change entry ∈ debugFileSections at member
    have tables : ∀ entry ∈ debugFileSections.take 3, entry.offset + entry.size ≤ 394 := by decide
    rw [← List.take_append_drop 3 debugFileSections] at member
    rcases List.mem_append.mp member with table | debug
    · have last := tables entry table
      have inside := held.2.2
      omega
    · exact isDebug_debugFileOutline debug
  header := Nat.le_trans (by decide) behind
  segmentTable := by
    rintro ⟨_, entries, counted, _, inside⟩
    cases (show Except.ok 1 = Except.ok entries from counted)
    change place < 52 + 1 * 32 at inside
    omega
  sectionTable := by
    rintro ⟨_, entries, counted, _, inside⟩
    cases (show Except.ok 6 = Except.ok entries from counted)
    change place < 84 + 6 * 40 at inside
    omega

theorem length_debugFile {entries texts : List UInt8} (length : entries.length = 50)
    (textLength : texts.length = 5) : (debugFile entries texts).size = 449 := by
  change (debugFileTables ++ entries ++ texts).length = 449
  rw [List.length_append, List.length_append, length_debugFileTables, length, textLength]

theorem keeps_debugFile {entries texts : List UInt8} (length : entries.length = 50)
    (textLength : texts.length = 5) : debugFileOutline.Keeps (debugFile entries texts) where
  size := by rw [length_debugFile length textLength, length_debugFile (by decide) (by decide)]
  inDebugData place differs := by
    refine inDebugData_debugFileOutline ?_ ?_
    · exact Nat.not_lt.mp fun before => differs (getElem?_debugFile_of_lt before)
    · apply Nat.not_le.mp
      intro behind
      apply differs
      rw [getElem?_neg (debugFile inlinedEntries fooTexts), getElem?_neg (debugFile entries texts)]
      · rw [length_debugFile length textLength]
        exact Nat.not_lt.mpr behind
      · rw [length_debugFile (by decide) (by decide)]
        exact Nat.not_lt.mpr behind

theorem symbols_debugFileOutline :
    SymbolTable.ofKind debugFileOutline.contents debugFileSections Section.symbolTableKind =
      .ok ⟨1, [⟨0, 0, 0, 0, 0, 0, 0⟩, ⟨1, 2, 1, 0, 1, 0x1000, 0x40⟩], some ⟨444, 449⟩⟩ := by
  decide +kernel

/-- Other entries leave the symbols and their names as they are. -/
theorem debugChange_debugFile {entries : List UInt8} (length : entries.length = 50) :
    DebugChange (debugFile inlinedEntries fooTexts) (debugFile entries fooTexts) where
  sameButDebug := .inr ⟨debugFileOutline, keeps_debugFile length (by decide)⟩
  symbols file parsed place held := by
    obtain ⟨sections, read, _⟩ := debugFileOutline.tables_of_parse parsed
    have symbols := Except.ok.inj (read.symm.trans symbols_debugFileOutline)
    have naming : file.namingTable = file.symbols := by rw [File.namingTable, symbols]; rfl
    rw [naming, symbols, sections] at held
    obtain ⟨_, ⟨entry, placed, inside⟩ | ⟨names, known, inside⟩⟩ := held
    · cases (show some _ = some entry from placed)
      exact getElem?_debugFile_of_lt (Nat.lt_trans inside.2.2 (by decide))
    · cases known
      exact getElem?_debugFile_of_le length inside.1

end Elf

namespace Symbolizer

def fileEverywhere (bytes : ByteArray) : FileSource := fun _ => .ok bytes

def reportLibfoo : List (Operation ImageSession) :=
  [.beginReport, .report "libfoo.so" 0x400000, .endReport]

theorem frames_withInlinedEntries :
    (((new (.new (fileEverywhere (Elf.debugFile Elf.inlinedEntries Elf.fooTexts)))).run
      reportLibfoo).resolve 0x401004).1.frames.map (·.name) = [unknownText, "foo"] := by
  decide +kernel

/-- Where the entries cannot be read the inlined call is lost, but not the function. -/
theorem sameFunctions_withBrokenEntries :
    let left := fileEverywhere (Elf.debugFile Elf.inlinedEntries Elf.fooTexts)
    let right := fileEverywhere (Elf.debugFile Elf.brokenEntries Elf.fooTexts)
    left.DebugChange right ∧
      ((new (.new left)).run reportLibfoo).SameFunctions ((new (.new right)).run reportLibfoo) ∧
      (((new (.new left)).run reportLibfoo).resolve 0x401004).1.frames.map (·.name) =
        [unknownText, "foo"] ∧
      (((new (.new right)).run reportLibfoo).resolve 0x401004).1.frames.map (·.name) =
        ["foo"] := by
  have files : FileSource.DebugChange
      (fileEverywhere (Elf.debugFile Elf.inlinedEntries Elf.fooTexts))
      (fileEverywhere (Elf.debugFile Elf.brokenEntries Elf.fooTexts)) :=
    fun _ => .ok (Elf.debugChange_debugFile (by decide))
  have same : List.Forall₂ Operation.DebugChange reportLibfoo reportLibfoo :=
    List.forall₂_same.mpr fun operation _ => .same operation
  exact ⟨files, sameFunctions_of_debugChange (.new files) same, frames_withInlinedEntries,
    by decide +kernel⟩

/-- A function may have its name from a debug section, and then another name from another one. -/
theorem functionName_withOtherTexts :
    let left := fileEverywhere (Elf.debugFile Elf.inlinedEntries Elf.fooTexts)
    let right := fileEverywhere (Elf.debugFile Elf.inlinedEntries Elf.barTexts)
    (∀ path, SameOutcome Elf.SameButDebug (left path) (right path)) ∧
      (((new (.new left)).run reportLibfoo).resolve 0x401004).1.functionName = some "foo" ∧
      (((new (.new right)).run reportLibfoo).resolve 0x401004).1.functionName = some "bar" := by
  refine ⟨?_, ?_, by decide +kernel⟩
  · intro path
    exact .ok (.inr ⟨Elf.debugFileOutline, Elf.keeps_debugFile (by decide) (by decide)⟩)
  · rw [ResolvedLocation.functionName, ← List.getLast?_map, frames_withInlinedEntries]
    rfl

end Symbolizer

end Symbolization
