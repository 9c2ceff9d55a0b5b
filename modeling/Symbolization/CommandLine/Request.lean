import Symbolization.CommandLine.Usage

/-!
# Requests

A command line asks for help or for the locations of addresses.  Options and addresses may stand in
any order.  A value that stands in an argument of its own is checked when the next one is known, so
an unknown option behind a wrong value is told first.
-/

namespace Symbolization

namespace CommandLine

/-- What is asked for: the locations of addresses in images, and how to show them. -/
structure Request where
  images : List ImageArgument
  addresses : List UInt64
  demangles : Bool
  functionsOnly : Bool
  deriving DecidableEq, Repr

inductive Unchecked where
  | nothing
  /-- The value of an option for an image, if it was met. -/
  | image (value : Option String)
  | addresses (values : List String)
  deriving DecidableEq, Repr

inductive Stop where
  | help
  | error (error : UsageError)
  deriving DecidableEq, Repr

structure Draft where
  request : Request
  unchecked : Unchecked
  deriving DecidableEq, Repr

namespace Draft

def empty : Draft := ⟨⟨[], [], false, false⟩, .nothing⟩

def addImage (draft : Draft) (value : String) : Except Stop Draft :=
  match parseImage value with
  | .ok image =>
    .ok { draft with request.images := draft.request.images ++ [image], unchecked := .nothing }
  | .error error => .error (.error (.invalidValue value .images error))

def addAddress (draft : Draft) (value : String) : Except Stop Draft :=
  match parseAddress value with
  | .ok address =>
    .ok
      { draft with
        request.addresses := draft.request.addresses ++ [address]
        unchecked := .nothing }
  | .error error => .error (.error (.invalidValue value .addresses error))

def check (draft : Draft) : Except Stop Draft :=
  match draft.unchecked with
  | .nothing => .ok draft
  | .image none => .error (.error (.missingValue .images))
  | .image (some value) => draft.addImage value
  | .addresses values => values.foldlM addAddress { draft with unchecked := .nothing }

def takeValue (draft : Draft) (value : String) : Except Stop Draft :=
  match draft.unchecked with
  | .addresses values => .ok { draft with unchecked := .addresses (values ++ [value]) }
  | _ => do return { (← draft.check) with unchecked := .addresses [value] }

def takeFlag (draft : Draft) (flag : Flag) : Except Stop Draft := do
  let checked ← draft.check
  match flag with
  | .help => throw .help
  | .demangle =>
    if checked.request.demangles then throw (.error (.repeatedFlag flag))
    return { checked with request.demangles := true }
  | .functionsOnly =>
    if checked.request.functionsOnly then throw (.error (.repeatedFlag flag))
    return { checked with request.functionsOnly := true }

/-- Takes an option for an image.  Its value stands behind it unless it is given here. -/
def takeImageOption (draft : Draft) (value : Option String) : Except Stop Draft := do
  let checked ← draft.check
  match value with
  | none => return { checked with unchecked := .image none }
  | some value => checked.addImage value

def flag? : String → Option Flag
  | "demangle" => some .demangle
  | "functions-only" => some .functionsOnly
  | "help" => some .help
  | _ => none

def takeLong (draft : Draft) (name : String) (value : Option String) : Except Stop Draft :=
  if name = "elf" then draft.takeImageOption value
  else
    match flag? name, value with
    | none, _ => .error (.error (.unknownArgument ("--" ++ name)))
    | some flag, some value => .error (.error (.needlessValue value flag))
    | some flag, none => draft.takeFlag flag

def takeShort (draft : Draft) (name : Char) : Except Stop Draft :=
  match name with
  | 'C' => draft.takeFlag .demangle
  | 'h' => draft.takeFlag .help
  | _ => .error (.error (.unknownArgument (String.ofList ['-', name])))

def takeArgument (draft : Draft) (argument : String) : Except Stop Draft :=
  match argument.toList with
  | '-' :: '-' :: long =>
    let name := String.ofList (long.takeWhile (· != '='))
    match long.dropWhile (· != '=') with
    | [] => draft.takeLong name none
    | _ :: value => draft.takeLong name (some (String.ofList value))
  | '-' :: first :: names => (first :: names).foldlM takeShort draft
  | _ =>
    match draft.unchecked with
    | .image none => .ok { draft with unchecked := .image (some argument) }
    | _ => draft.takeValue argument

/-- Takes all the arguments.  Behind two hyphens there are no options. -/
def takeAll (draft : Draft) : List String → Except Stop Draft
  | [] => .ok draft
  | "--" :: values => values.foldlM takeValue draft
  | argument :: rest => do takeAll (← draft.takeArgument argument) rest

end Draft

namespace Request

def parse (arguments : List String) : Except Stop Request := do
  let draft ← Draft.empty.takeAll arguments
  let request := (← draft.check).request
  if request.images.isEmpty ∨ request.addresses.isEmpty then throw (.error .missingArguments)
  return request

end Request

end CommandLine

end Symbolization
