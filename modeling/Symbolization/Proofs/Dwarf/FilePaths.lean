import Symbolization.Proofs.Dwarf.LineSequences

/-!
# Paths of source files by the table of directories

By the table of directories the path of a file leads from the directory of compilation, its home,
over the directory of the file to its name, and directory zero is the home itself.  The path that is
told goes there once more: it starts at the home and then takes directory zero for one more step.
It is the path by the table where this step changes nothing, because the home is absolute or has no
name, and where the name of the file alone counts.
-/

namespace Symbolization

namespace Path

theorem join_of_isAbsolute {path : String} (base : String) (absolute : isAbsolute path) :
    join base path = path :=
  if_pos absolute

theorem join_empty_left (path : String) : join "" path = path := by
  rw [join]
  split
  · rfl
  · exact String.empty_append

theorem join_of_relative {base path : String} (relative : isAbsolute path = false) :
    join base path =
      if base.toList.getLast?.any (· != '/') then base ++ "/" ++ path else base ++ path := by
  rw [join, relative, if_neg Bool.false_ne_true]

/-- A relative path that is joined to itself is longer, and ends alike. -/
theorem length_lt_join_self {path : String} (relative : isAbsolute path = false)
    (named : path ≠ "") :
    path.toList.length < (join path path).toList.length ∧
      (join path path).toList.getLast? = path.toList.getLast? := by
  have some : path.toList ≠ [] := fun empty => named (String.toList_eq_nil_iff.mp empty)
  have long := List.length_pos_iff.mpr some
  obtain ⟨letter, last⟩ := Option.isSome_iff_exists.mp (List.getLast?_isSome.mpr some)
  rw [join_of_relative relative]
  split
  · simp [last, List.getLast?_cons]
  · simp [last]
    omega

/-- Going through a relative path twice shows, unless an absolute path follows. -/
theorem join_join_self_iff {home name : String} :
    join (join home home) name = join home name ↔
      isAbsolute home ∨ home = "" ∨ isAbsolute name := by
  constructor
  · intro same
    by_contra other
    simp only [not_or, Bool.not_eq_true] at other
    obtain ⟨relative, named, relativeName⟩ := other
    obtain ⟨longer, endsAlike⟩ := length_lt_join_self relative named
    rw [join_of_relative relativeName, join_of_relative relativeName, endsAlike] at same
    have lengths := congrArg (·.toList.length) same
    split at lengths <;> simp at lengths <;> omega
  · rintro (absolute | rfl | absolute)
    · rw [join_of_isAbsolute home absolute]
    · rw [join_empty_left]
    · rw [join_of_isAbsolute _ absolute, join_of_isAbsolute _ absolute]

end Path

namespace Dwarf

namespace CompilationUnit

/-- The directory of compilation as a text, which is empty if it is not known. -/
def home (unit : CompilationUnit) : String := (unit.directory.map Utf8.lossy).getD ""

/-- Whether the number of a directory stands for the directory of compilation.  From version 5 on
the table itself has to say so. -/
def isHome (unit : CompilationUnit) (header : LineHeader) (number : Nat) : Bool :=
  number == 0 && (header.encoding.version ≤ 4 ||
    (header.directories[0]?).bind unit.textOf? == some unit.home)

/-- The directory with a number in the table, where numbers start from one up to version 4. -/
def listedDirectory? (header : LineHeader) (number : Nat) : Option AttributeValue :=
  if header.encoding.version ≤ 4 then header.directories[number - 1]?
  else header.directories[number]?

/-- The directory of a file by the table: the home itself, or the one that the table lists, seen
from the home.  A number that is not listed adds nothing. -/
def tableDirectory? (unit : CompilationUnit) (header : LineHeader) (number : Nat) :
    Option String :=
  if unit.isHome header number then some unit.home
  else
    (listedDirectory? header number).elim (some unit.home) fun value =>
      (unit.textOf? value).map (Path.join unit.home)

/-- The path of a file by the table of directories, unless a part of it cannot be read. -/
def tablePath? (unit : CompilationUnit) (header : LineHeader) (file : FileEntry) :
    Option String := do
  let directory ← unit.tableDirectory? header file.directory
  let name ← unit.textOf? file.name
  some (Path.join directory name)

/-- The file lies in the directory of compilation, to which a relative path leads, and its own name
is relative too. -/
structure RepeatsHome (unit : CompilationUnit) (header : LineHeader) (file : FileEntry) :
    Prop where
  isHome : unit.isHome header file.directory
  relative : Path.isAbsolute unit.home = false
  named : unit.home ≠ ""
  relativeName : ∃ name, unit.textOf? file.name = some name ∧ Path.isAbsolute name = false

/-- A row of the line program or the call site of an entry refers to the file, and the path is told
for it. -/
inductive Tells (unit : CompilationUnit) (header : LineHeader) :
    FileEntry → Option String → Prop where
  | row {address : UInt64} (row next : LineRow) {position : SourcePosition} {file : FileEntry} :
      unit.lines = some header → unit.position? address = some position →
      LineRow.covering? address (LineRow.all header) = some (row, next) →
      header.file? unit.name next.defined row.file = some file →
      Tells unit header file position.file
  | call {entry : Entry} {value : AttributeValue} {number : Nat} {file : FileEntry} :
      unit.lines = some header → entry.value? .callFile = some value →
      value.unsigned? = some number → header.file? unit.name [] number = some file →
      Tells unit header file (unit.callSite entry).file

variable {unit : CompilationUnit} {header : LineHeader} {file : FileEntry} {name : String}
  {path : Option String}

/-- The directory of a file as the path goes through it. -/
def toldDirectory? (unit : CompilationUnit) (header : LineHeader) (number : Nat) :
    Option String :=
  (header.directory? unit.directory number).elim (some unit.home) fun value =>
    (unit.textOf? value).map (Path.join unit.home)

theorem path?_eq_bind : unit.path? header file =
    (unit.toldDirectory? header file.directory).bind fun directory =>
      (unit.textOf? file.name).bind fun name => some (Path.join directory name) := by
  unfold path? toldDirectory?
  cases header.directory? unit.directory file.directory <;> rfl

theorem toldDirectory?_of_isHome {number : Nat} (isHome : unit.isHome header number) :
    unit.toldDirectory? header number = some (Path.join unit.home unit.home) := by
  simp only [CompilationUnit.isHome, Bool.and_eq_true, Bool.or_eq_true, beq_iff_eq,
    decide_eq_true_eq] at isHome
  obtain ⟨rfl, listed⟩ := isHome
  by_cases old : header.encoding.version ≤ 4
  · rw [toldDirectory?, LineHeader.directory?.eq_def, if_pos old]
    cases known : unit.directory with
    | none =>
        have empty : unit.home = "" := by rw [home, known, Option.map_none, Option.getD_none]
        simp [empty, Path.join_empty_left]
    | some bytes =>
        have text : unit.textOf? (.text bytes) = some unit.home := by
          rw [home, known]
          rfl
        simp [text]
  · obtain ⟨value, listed, text⟩ := Option.bind_eq_some_iff.mp (listed.resolve_left old)
    rw [toldDirectory?, LineHeader.directory?.eq_def, if_neg old, listed, Option.elim_some, text,
      Option.map_some]

theorem toldDirectory?_of_not_isHome {number : Nat}
    (notHome : unit.isHome header number = false) :
    unit.toldDirectory? header number = unit.tableDirectory? header number := by
  have same : header.directory? unit.directory number = listedDirectory? header number := by
    rw [LineHeader.directory?.eq_def, listedDirectory?]
    by_cases old : header.encoding.version ≤ 4
    · rw [if_pos old, if_pos old]
      cases number with
      | zero => simp [CompilationUnit.isHome, old] at notHome
      | succ index => rfl
    · rw [if_neg old, if_neg old]
  rw [toldDirectory?, same, tableDirectory?, notHome, if_neg Bool.false_ne_true]

theorem path?_of_not_isHome (notHome : unit.isHome header file.directory = false) :
    unit.path? header file = unit.tablePath? header file := by
  rw [path?_eq_bind, toldDirectory?_of_not_isHome notHome]
  rfl

theorem path?_of_isHome (isHome : unit.isHome header file.directory) :
    unit.path? header file =
      (unit.textOf? file.name).map (Path.join (Path.join unit.home unit.home)) := by
  rw [path?_eq_bind, toldDirectory?_of_isHome isHome, Option.bind_some, Option.map_eq_bind]
  rfl

theorem tablePath?_of_isHome (isHome : unit.isHome header file.directory) :
    unit.tablePath? header file = (unit.textOf? file.name).map (Path.join unit.home) := by
  rw [tablePath?, tableDirectory?, if_pos isHome, Option.map_eq_bind]
  rfl

/-- The path that is told is the one by the table just where the home is not gone through twice. -/
theorem path?_eq_tablePath?_iff :
    unit.path? header file = unit.tablePath? header file ↔ ¬ unit.RepeatsHome header file := by
  cases isHome : unit.isHome header file.directory with
  | false =>
      refine iff_of_true (path?_of_not_isHome isHome) fun repeats => ?_
      exact Bool.false_ne_true (isHome.symm.trans repeats.isHome)
  | true =>
      rw [path?_of_isHome isHome, tablePath?_of_isHome isHome]
      constructor
      · rintro same ⟨_, relative, named, name, readable, relativeName⟩
        rw [readable, Option.map_some, Option.map_some, Option.some_inj,
          Path.join_join_self_iff] at same
        simp [relative, named, relativeName] at same
      · intro noRepetition
        cases readable : unit.textOf? file.name with
        | none => rfl
        | some name =>
            rw [Option.map_some, Option.map_some, Option.some_inj, Path.join_join_self_iff]
            by_contra other
            simp only [not_or, Bool.not_eq_true] at other
            exact noRepetition ⟨isHome, other.1, other.2.1, name, readable, other.2.2⟩

theorem Tells.eq_path? (tells : unit.Tells header file path) : path = unit.path? header file := by
  cases tells with
  | row _ _ lines told covering refers =>
      rw [position?, lines, Option.bind_eq_bind, Option.bind_some, covering] at told
      cases told
      simp [rowPosition, filePath?, refers]
  | call lines called number refers =>
      simp [callSite, called, number, lines, filePath?, refers]

/-- The path that is told for a file is the one by the table of directories just where the home is
not gone through twice.  Otherwise it leads from the home over the same directory once more to the
name. -/
theorem told_exact (tells : unit.Tells header file path) :
    (path = unit.tablePath? header file ↔ ¬ unit.RepeatsHome header file) ∧
      (unit.RepeatsHome header file → ∃ name, unit.textOf? file.name = some name ∧
        unit.tablePath? header file = some (Path.join unit.home name) ∧
        path = some (Path.join (Path.join unit.home unit.home) name)) := by
  rw [tells.eq_path?]
  refine ⟨path?_eq_tablePath?_iff, ?_⟩
  rintro ⟨isHome, _, _, name, readable, _⟩
  rw [path?_of_isHome isHome, tablePath?_of_isHome isHome, readable]
  exact ⟨name, rfl, rfl, rfl⟩

/-- A unit that was compiled in a relative directory, with a line for the addresses 16 and 17. -/
def compiledInRelative : CompilationUnit :=
  { ofLineProgram ⟨#[0, 3, 2, 16, 0, 1, 2, 2, 0, 1, 1]⟩ with
    directory := some [0x73, 0x72, 0x63] }

/-- The only file of a line program as above. -/
def onlyFile : FileEntry := ⟨.text [0x61, 0x2e, 0x63], 0⟩

theorem tells_compiledInRelative : ∃ header,
    compiledInRelative.Tells header onlyFile (some "src/src/a.c") ∧
      compiledInRelative.RepeatsHome header onlyFile ∧
      compiledInRelative.tablePath? header onlyFile = some "src/a.c" := by
  have homeIs : compiledInRelative.home = "src" := by cbv
  have named : compiledInRelative.home ≠ "" := by
    rw [homeIs]
    decide
  have told : compiledInRelative.position? 16 = some ⟨some "src/src/a.c", 1, 0⟩ := by cbv
  refine ⟨_, .row ⟨16, 1, 1, 0, false, []⟩ ⟨18, 1, 1, 0, true, []⟩ rfl told ?_ ?_,
    ⟨?_, ?_, named, "a.c", ?_, ?_⟩, ?_⟩ <;> cbv

/-- The path that is told for its file goes through the directory twice. -/
theorem told_compiledInRelative : ∃ header path,
    compiledInRelative.Tells header onlyFile path ∧
      compiledInRelative.RepeatsHome header onlyFile ∧
      path ≠ compiledInRelative.tablePath? header onlyFile ∧
      (∃ name, compiledInRelative.textOf? onlyFile.name = some name ∧
        compiledInRelative.tablePath? header onlyFile =
          some (Path.join compiledInRelative.home name) ∧
        path = some (Path.join (Path.join compiledInRelative.home compiledInRelative.home) name)) ∧
      path = some "src/src/a.c" ∧
      compiledInRelative.tablePath? header onlyFile = some "src/a.c" := by
  obtain ⟨header, tells, repeats, table⟩ := tells_compiledInRelative
  have agreement := told_exact tells
  exact ⟨header, _, tells, repeats, fun same => agreement.1.mp same repeats, agreement.2 repeats,
    rfl, table⟩

/-- The table of directories does not tell all paths. -/
theorem not_tablePath?_of_tells : ¬ ∀ (unit : CompilationUnit) (header : LineHeader)
    (file : FileEntry) (path : Option String),
    unit.Tells header file path → path = unit.tablePath? header file := by
  intro all
  obtain ⟨header, tells, _, table⟩ := tells_compiledInRelative
  have same := (all _ header _ _ tells).trans table
  exact absurd (Option.some.inj same) (by decide)

end CompilationUnit

end Dwarf

end Symbolization
