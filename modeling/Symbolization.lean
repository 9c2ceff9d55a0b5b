import Symbolization.Address.Hexadecimal
import Symbolization.Address.Interval
import Symbolization.Bytes.Cursor
import Symbolization.Bytes.Leb128
import Symbolization.Bytes.Reader
import Symbolization.CommandLine.Argument
import Symbolization.CommandLine.Outcome
import Symbolization.CommandLine.Request
import Symbolization.CommandLine.Usage
import Symbolization.Dwarf.Abbreviation
import Symbolization.Dwarf.AddressTable
import Symbolization.Dwarf.DebugData
import Symbolization.Dwarf.Encoding
import Symbolization.Dwarf.Entries
import Symbolization.Dwarf.Entry
import Symbolization.Dwarf.EntryRanges
import Symbolization.Dwarf.Form
import Symbolization.Dwarf.Line.Header
import Symbolization.Dwarf.Line.Instruction
import Symbolization.Dwarf.Line.Row
import Symbolization.Dwarf.Names
import Symbolization.Dwarf.RangeList
import Symbolization.Dwarf.Scopes
import Symbolization.Dwarf.Sections
import Symbolization.Dwarf.SourceFile
import Symbolization.Dwarf.Unit
import Symbolization.Dwarf.UnitHeader
import Symbolization.Elf.Contents
import Symbolization.Elf.Error
import Symbolization.Elf.Extent
import Symbolization.Elf.File
import Symbolization.Elf.Section
import Symbolization.Elf.Symbol
import Symbolization.Error
import Symbolization.Files.Source
import Symbolization.Frame
import Symbolization.Image
import Symbolization.Index.Cache
import Symbolization.Index.ModuleIndex
import Symbolization.Index.RangeSet
import Symbolization.Inlining
import Symbolization.Main
import Symbolization.Mangling.Demangle
import Symbolization.Mangling.Grammar
import Symbolization.Mangling.HashedPath
import Symbolization.Mangling.Parser
import Symbolization.Mangling.Printer
import Symbolization.Mangling.Syntax
import Symbolization.Mangling.Vocabulary
import Symbolization.Order.Search
import Symbolization.Session.ImageSession
import Symbolization.Session.InMemory
import Symbolization.Session.Scope
import Symbolization.Session.Session
import Symbolization.Session.View
import Symbolization.Symbolizer
import Symbolization.Text.Invisible
import Symbolization.Text.Path
import Symbolization.Text.Quoted
import Symbolization.Text.Terminal
import Symbolization.Text.Utf8
import Symbolization.Proofs.Session.Lawful
import Symbolization.Proofs.Session.Registration
import Symbolization.Proofs.Index.Transparency
import Symbolization.Proofs.Address.BoundingBox
import Symbolization.Proofs.Index.Exactness
import Symbolization.Proofs.Dwarf.Entries
import Symbolization.Proofs.Inlining.Completeness
import Symbolization.Proofs.Order.Search
import Symbolization.Proofs.Session.MoveOver
import Symbolization.Proofs.Session.Transfer
import Symbolization.Proofs.Session.Requests
import Symbolization.Proofs.Session.Unrepeated
import Symbolization.Proofs.Session.Lookup
import Symbolization.Proofs.Session.Abandonment
import Symbolization.Proofs.Symbolizer.ReportOrder
import Symbolization.Proofs.Symbolizer.TableFree
import Symbolization.Proofs.Session.BatchEnd
import Symbolization.Proofs.Symbolizer.Resolution
import Symbolization.Proofs.Session.HandleIdentity
import Symbolization.Proofs.Symbolizer.Faults
import Symbolization.Proofs.Symbolizer.Protocol
import Symbolization.Proofs.CommandLine.Arguments
import Symbolization.Proofs.CommandLine.EachAddress
import Symbolization.Proofs.Bytes.Locality
import Symbolization.Proofs.Elf.Places
import Symbolization.Proofs.Elf.Outline
import Symbolization.Proofs.Session.DebugChange
import Symbolization.Proofs.Symbolizer.SymbolNaming
import Symbolization.Proofs.Elf.Extent
import Symbolization.Proofs.Inlining.Exchange
import Symbolization.Proofs.Index.Gathering
import Symbolization.Proofs.Dwarf.LineSequences
import Symbolization.Proofs.Text.CanonicalPath
import Symbolization.Proofs.Bytes.Repetition
import Symbolization.Proofs.Dwarf.Units
import Symbolization.Proofs.Dwarf.AddressTable
import Symbolization.Proofs.Dwarf.Names
import Symbolization.Proofs.Dwarf.FilePaths
import Symbolization.Proofs.Dwarf.EntryPlaces
import Symbolization.Proofs.Address.Numerals
import Symbolization.Proofs.CommandLine.WrittenForms
import Symbolization.Proofs.Mangling.LostNames
import Symbolization.Proofs.Symbolizer.Retirement
import Symbolization.Proofs.Symbolizer.IndexBuilds
import Symbolization.Proofs.Elf.SymbolMap
import Symbolization.Proofs.Session.NearestSymbol
import Symbolization.Proofs.Index.Boxes
import Symbolization.Proofs.Index.WalkLength
import Symbolization.Proofs.Text.Utf8
