import Symbolization.Dwarf.Abbreviation
import Symbolization.Dwarf.UnitHeader

/-!
# Debugging entries

An entry is the code of an abbreviation followed by the values of its attributes.  Values are read
in order: behind one that cannot be read nothing of the unit is readable any more, neither the
further attributes of the entry nor the entries after it.
-/

namespace Symbolization

namespace Dwarf

structure Attribute where
  name : AttributeName
  value : AttributeValue
  deriving DecidableEq, Repr

namespace Attribute

/-- The attributes up to the first unreadable one, and the place behind all of them if there is
none. -/
def readAll (encoding : Encoding) : List AttributeSpec → Cursor → List Attribute × Option Cursor
  | [], cursor => ([], some cursor)
  | spec :: specs, cursor =>
    match (spec.read encoding).run cursor with
    | none => ([], none)
    | some (value, next) =>
      let others := readAll encoding specs next
      (⟨spec.name, value⟩ :: others.1, others.2)

theorem reaches_of_readAll {encoding : Encoding} {specs : List AttributeSpec}
    {first last : Cursor} (found : (readAll encoding specs first).2 = some last) :
    first.Reaches last := by
  induction specs generalizing first with
  | nil =>
      cases found
      exact .refl _
  | cons spec specs induction =>
      unfold readAll at found
      split at found
      · contradiction
      · rename_i value next read
        exact ((spec.read encoding).reaches read).trans (induction found)

end Attribute

/-- An entry whose code was read at an offset of its unit. -/
structure Entry where
  offset : Nat
  encoding : Encoding
  abbreviation : Abbreviation
  /-- Where the values of the attributes start. -/
  values : Cursor

namespace Entry

def tag (entry : Entry) : Tag := entry.abbreviation.tag

/-- The attributes up to the first one that cannot be read. -/
def attributes (entry : Entry) : List Attribute :=
  (Attribute.readAll entry.encoding entry.abbreviation.attributes entry.values).1

/-- The place behind the entry, if all its attributes can be read. -/
def end? (entry : Entry) : Option Cursor :=
  (Attribute.readAll entry.encoding entry.abbreviation.attributes entry.values).2

def isReadable (entry : Entry) : Bool := entry.end?.isSome

/-- The value of the first attribute of a name. -/
def value? (entry : Entry) (name : AttributeName) : Option AttributeValue :=
  (entry.attributes.find? (·.name == name)).map (·.value)

/-- Whether the entry only declares a name.  Only a flag that is set tells so. -/
def isDeclaration (entry : Entry) : Bool := entry.value? .declaration == some (.flag true)

theorem reaches_of_end? {entry : Entry} {place : Cursor} (found : entry.end? = some place) :
    entry.values.Reaches place :=
  Attribute.reaches_of_readAll found

end Entry

end Dwarf

end Symbolization
