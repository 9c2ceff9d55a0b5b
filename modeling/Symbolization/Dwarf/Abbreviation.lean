import Symbolization.Dwarf.Form
import Symbolization.Session.Scope

/-!
# Abbreviations

Entries are written by the codes of abbreviations, which give their kind, whether they have
children, and the names and forms of their attributes.
-/

namespace Symbolization

namespace Dwarf

structure Abbreviation where
  code : Nat
  tag : Tag
  hasChildren : Bool
  attributes : List AttributeSpec
  deriving DecidableEq, Repr

namespace AttributeSpec

/-- An attribute of an abbreviation, or nothing at the two zeros that end the list. -/
def readSpec : Reader (Option AttributeSpec) := do
  let name ← Reader.unsigned16
  let form ← Reader.unsigned16
  if name = 0 then
    if form = 0 then return none else Reader.fail
  else if form = 0 then Reader.fail
  else if form = Form.implicitConstantCode then
    return some ⟨⟨name⟩, form, some (← Reader.signed)⟩
  else return some ⟨⟨name⟩, form, none⟩

end AttributeSpec

namespace Abbreviation

def readBody (code : Nat) : Reader Abbreviation := do
  let tag ← Reader.unsigned16
  Reader.require (tag != 0)
  let children ← Reader.byte
  Reader.require (children == 0 || children == 1)
  let attributes ←
    Reader.untilNone AttributeSpec.readSpec (Reader.unsigned16_consumes.bind _)
  return ⟨code, ⟨tag⟩, children == 1, attributes⟩

/-- An abbreviation, or nothing at the zero that ends the table. -/
def read : Reader (Option Abbreviation) := do
  let code ← Reader.unsigned
  if code = 0 then return none else return some (← readBody code)

def readAll : Reader (List Abbreviation) := Reader.untilNone read (Reader.unsigned_consumes.bind _)

/-- A table in which no code occurs twice. -/
def readTable : Reader (List Abbreviation) := do
  let table ← readAll
  Reader.require (decide (table.map Abbreviation.code).Nodup)
  return table

end Abbreviation

end Dwarf

end Symbolization
