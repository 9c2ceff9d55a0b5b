import Symbolization.Index.Cache
import Symbolization.Inlining
import Symbolization.Session.Session

/-!
# Resolving addresses

A symbolizer takes reports of loaded modules and then maps runtime addresses to modules, symbols
and source positions.  Nothing that goes wrong stops it: it answers as much as it knows and warns
about the rest.
-/

namespace Symbolization

/-- How far the reporting of modules has come. -/
inductive ReportState where
  /-- No batch was completed or begun. -/
  | unreported
  /-- A batch is open. -/
  | reporting
  /-- Modules are registered and addresses can be resolved. -/
  | ready
  deriving DecidableEq, Repr

/-- Something to tell about a step that did not go as asked. -/
inductive Warning where
  | batchRestarted
  | moduleIgnored (path : String)
  | moduleFailed (path : String) (error : SymbolizeError)
  | noBatch
  | batchFailed (error : SymbolizeError)
  | notReady (address : UInt64)
  | noModule (address : UInt64)
  deriving DecidableEq, Repr

namespace Warning

def message : Warning → String
  | .batchRestarted => "restarting an unfinished module report"
  | .moduleIgnored path => "ignoring " ++ path ++ " reported outside of a report batch"
  | .moduleFailed path error => "failed to report " ++ path ++ ": " ++ error.message
  | .noBatch => "no module report to finish"
  | .batchFailed error => "finishing module report: " ++ error.message
  | .notReady address =>
    "resolving " ++ Hexadecimal.render address ++ " before modules were reported"
  | .noModule address => "no module contains " ++ Hexadecimal.render address

end Warning

/-- A session with the indexes built for it. -/
structure Symbolizer (Session : Type) where
  session : Session
  indexes : IndexCache
  state : ReportState

namespace Symbolizer

variable {Session : Type}

/-- A symbolizer over a session to which nothing was reported through it. -/
def new (session : Session) : Symbolizer Session := ⟨session, .empty, .unreported⟩

variable [DebugSession Session]

def view (symbolizer : Symbolizer Session) : DebugView := DebugSession.view symbolizer.session

/-- Opens a batch of reports. -/
def beginReport (symbolizer : Symbolizer Session) : List Warning × Symbolizer Session :=
  (if symbolizer.state = .reporting then [.batchRestarted] else [],
    { symbolizer with
      session := DebugSession.reportBegin symbolizer.session
      state := .reporting })

/-- Reports the image at a path.  An image that cannot be registered is left out. -/
def report (symbolizer : Symbolizer Session) (path : FilePath) (loadAddress : UInt64) :
    List Warning × Symbolizer Session :=
  if symbolizer.state = .reporting then
    let (outcome, session) := DebugSession.reportModule symbolizer.session path loadAddress
    match outcome with
    | .ok _ => ([], { symbolizer with session })
    | .error error => ([.moduleFailed path.told error], { symbolizer with session })
  else ([.moduleIgnored path.told], symbolizer)

/-- Completes the batch.  Indexes of modules that it left out are dropped. -/
def endReport (symbolizer : Symbolizer Session) : List Warning × Symbolizer Session :=
  if symbolizer.state = .reporting then
    let (outcome, session) := DebugSession.reportEnd symbolizer.session
    let view := DebugSession.view session
    let indexes := symbolizer.indexes.retain fun module => (view.moduleInfo module).isSome
    match outcome with
    | .ok _ => ([], ⟨session, indexes, .ready⟩)
    | .error error => ([.batchFailed error], ⟨session, indexes, .ready⟩)
  else ([.noBatch], symbolizer)

/-- The unit that holds an address of a module: by the module's address table, or else by the
index of its entries, which is built if it is not there. -/
def findUnit (symbolizer : Symbolizer Session) (module : ModuleHandle) (address : UInt64) :
    Option OwnedUnit × Symbolizer Session :=
  match symbolizer.view.unitAt module address with
  | some unit => (some unit, symbolizer)
  | none =>
    let (indexes, session) := symbolizer.indexes.ensureFrom symbolizer.session module
    (indexes.findUnit module address, { symbolizer with session, indexes })

end Symbolizer

namespace DebugView

def frames (view : DebugView) (name : String) (unit : Option OwnedUnit) (address : UInt64) :
    List Frame :=
  match unit with
  | none => [.named name]
  | some owned =>
    let offset := address - owned.bias
    let position := (view.sourcePosition owned.unit offset).getD .unknown
    view.inlineFrames owned.unit offset (.placed name (.ofSource position) false)

/-- The location of an address of a module in a unit that may or may not be known. -/
def location (view : DebugView) (module : ModuleHandle) (info : ModuleInfo)
    (unit : Option OwnedUnit) (address : UInt64) : ResolvedLocation :=
  let symbol := (view.nearestSymbol module address).getD ⟨unknownText, 0⟩
  { moduleName := info.name
    moduleOffset := address - info.loadStart
    symbolOffset := symbol.offset
    frames := view.frames symbol.name unit address }

end DebugView

namespace Symbolizer

variable {Session : Type} [DebugSession Session]

/-- All that is known about a runtime address. -/
def resolve (symbolizer : Symbolizer Session) (address : UInt64) :
    ResolvedLocation × List Warning × Symbolizer Session :=
  if symbolizer.state = .ready then
    match symbolizer.view.moduleAt address with
    | none => (.unresolved, [.noModule address], symbolizer)
    | some module =>
      match symbolizer.view.moduleInfo module with
      | none => (.unresolved, [], symbolizer)
      | some info =>
        let (unit, next) := symbolizer.findUnit module address
        (symbolizer.view.location module info unit address, [], next)
  else (.unresolved, [.notReady address], symbolizer)

end Symbolizer

end Symbolization
