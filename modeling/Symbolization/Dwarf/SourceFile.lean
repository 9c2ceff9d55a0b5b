import Symbolization.Dwarf.Unit
import Symbolization.Session.View
import Symbolization.Text.Path
import Symbolization.Text.Utf8

/-!
# Source positions

The path of a source file starts at the directory of compilation, goes on with the directory of
the file table and ends in the name of the file.  Each part that is absolute replaces what stands
before it.
-/

namespace Symbolization

namespace Dwarf

/-- A number of 32 bits.  Greater ones count as not known. -/
def smallNumber (value : Nat) : Nat := if value < UInt32.size then value else 0

namespace CompilationUnit

/-- The text of a value, with every ill-formed stretch replaced. -/
def textOf? (unit : CompilationUnit) (value : AttributeValue) : Option String :=
  (unit.context.text? value).map Utf8.lossy

/-- The path of a file, unless its name or its directory cannot be read. -/
def path? (unit : CompilationUnit) (header : LineHeader) (file : FileEntry) : Option String := do
  let home := (unit.directory.map Utf8.lossy).getD ""
  let directory ←
    match header.directory? unit.directory file.directory with
    | none => some home
    | some value => (unit.textOf? value).map (Path.join home)
  let name ← unit.textOf? file.name
  some (Path.join directory name)

/-- The path of the file with a number, where `more` are the files that the line program itself
defined so far. -/
def filePath? (unit : CompilationUnit) (header : LineHeader) (more : List FileEntry)
    (number : Nat) : Option String :=
  (header.file? unit.name more number).bind (unit.path? header)

/-- The position that a row tells.  `more` are the files that the program defined so far. -/
def rowPosition (unit : CompilationUnit) (header : LineHeader) (more : List FileEntry)
    (row : LineRow) : SourcePosition :=
  ⟨unit.filePath? header more row.file, smallNumber row.line.toNat, smallNumber row.column⟩

def position? (unit : CompilationUnit) (address : UInt64) : Option SourcePosition := do
  let header ← unit.lines
  let (row, next) ← LineRow.covering? address (LineRow.all header)
  some (unit.rowPosition header next.defined row)

def numberOf (entry : Entry) (name : AttributeName) : Nat :=
  smallNumber (((entry.value? name).bind AttributeValue.unsigned?).getD 0)

/-- Where the caller invoked the routine of an inlined entry. -/
def callSite (unit : CompilationUnit) (entry : Entry) : SourcePosition :=
  let file := do
    let value ← entry.value? .callFile
    let number ← value.unsigned?
    let header ← unit.lines
    unit.filePath? header [] number
  ⟨file, numberOf entry .callLine, numberOf entry .callColumn⟩

end CompilationUnit

end Dwarf

end Symbolization
