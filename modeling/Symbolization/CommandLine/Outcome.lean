import Symbolization.CommandLine.Request
import Symbolization.Mangling.Demangle
import Symbolization.Session.ImageSession
import Symbolization.Symbolizer

/-!
# Outcomes

What a command line prints and how it ends.  Addresses are resolved in their order by one
symbolizer, and each has its own lines.
-/

namespace Symbolization

abbrev ImageSymbolizer := Symbolizer ImageSession

namespace Symbolizer

def resolveEach {Session : Type} [DebugSession Session] (symbolizer : Symbolizer Session) :
    List UInt64 → List ResolvedLocation
  | [] => []
  | address :: rest =>
    let resolved := symbolizer.resolve address
    resolved.1 :: resolveEach resolved.2.2 rest

end Symbolizer

namespace CommandLine

structure Outcome where
  exitCode : UInt32
  output : String
  error : Option UsageError
  deriving DecidableEq, Repr

namespace Request

def symbolizer (request : Request) (source : FileSource) : ImageSymbolizer :=
  let opened := (Symbolizer.new (ImageSession.new source)).beginReport.2
  let reported := request.images.foldl
    (fun symbolizer image => (symbolizer.report image.path image.loadAddress).2) opened
  reported.endReport.2

def shownName (request : Request) (name : String) : String :=
  if request.demangles then Mangling.demangle name else name

/-- The location of an address with its names as the request wants them. -/
def shown (request : Request) (location : ResolvedLocation) : ResolvedLocation :=
  { location with
    frames := location.frames.map fun frame =>
      { frame with name := request.shownName frame.name } }

def lines (request : Request) (address : UInt64) (location : ResolvedLocation) : String :=
  let shown := request.shown location
  if request.functionsOnly then
    Hexadecimal.render address ++ "\n"
      ++ String.join (shown.frames.map fun frame => "    " ++ frame.name ++ "\n")
  else Hexadecimal.render address ++ " " ++ shown.text ++ "\n"

/-- What the request prints.  It fails if any address belongs to no module. -/
def run (request : Request) (source : FileSource) : Outcome :=
  let locations := (request.symbolizer source).resolveEach request.addresses
  { exitCode := if locations.any ResolvedLocation.isEmpty then 1 else 0
    output := String.join (List.zipWith request.lines request.addresses locations)
    error := none }

end Request

namespace Outcome

def ofArguments (arguments : List String) (source : FileSource) : Outcome :=
  match Request.parse arguments with
  | .ok request => request.run source
  | .error .help => ⟨0, helpText, none⟩
  | .error (.error error) => ⟨2, "", some error⟩

end Outcome

end CommandLine

end Symbolization
