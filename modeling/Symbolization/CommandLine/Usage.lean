import Symbolization.CommandLine.Argument
import Symbolization.Text.Terminal

/-!
# Usage of the command line

The options, what can be wrong with them, and the text that explains them.
-/

namespace Symbolization

namespace CommandLine

inductive Flag where
  | demangle
  | functionsOnly
  | help
  deriving DecidableEq, Repr

namespace Flag

def text : Flag → String
  | .demangle => "--demangle"
  | .functionsOnly => "--functions-only"
  | .help => "--help"

end Flag

inductive Slot where
  | images
  | addresses
  deriving DecidableEq, Repr

namespace Slot

def text : Slot → String
  | .images => "--elf <PATH[@ADDR]>"
  | .addresses => "<ADDRESS>..."

end Slot

inductive UsageError where
  | invalidValue (value : String) (slot : Slot) (error : AddressError)
  | missingValue (slot : Slot)
  | needlessValue (value : String) (flag : Flag)
  | repeatedFlag (flag : Flag)
  | unknownArgument (text : String)
  | missingArguments
  deriving DecidableEq, Repr

namespace UsageError

/-- The error in words.  What was given is told without what it would do to a terminal. -/
def message : UsageError → String
  | .invalidValue value slot error =>
    "error: invalid value '" ++ Terminal.plain value ++ "' for '" ++ slot.text ++ "': "
      ++ error.message
  | .missingValue slot =>
    "error: a value is required for '" ++ slot.text ++ "' but none was supplied"
  | .needlessValue value flag =>
    "error: unexpected value '" ++ Terminal.plain value ++ "' for '" ++ flag.text
      ++ "' found; no more were accepted"
  | .repeatedFlag flag =>
    "error: the argument '" ++ flag.text ++ "' cannot be used multiple times"
  | .unknownArgument text => "error: unexpected argument '" ++ Terminal.plain text ++ "' found"
  | .missingArguments => "error: the following required arguments were not provided:"

/-- The characters without a return of the carriage at their end. -/
def dropReturn (line : List Char) : List Char :=
  if line.getLast? = some '\r' then line.dropLast else line

/-- The first line of the message, which ends with a feed of the line or with a return of the
carriage and a feed. -/
def headline (error : UsageError) : String :=
  let text := error.message.toList
  let line := text.takeWhile (· != '\n')
  String.ofList (if line = text then line else dropReturn line)

end UsageError

def helpText : String :=
  "Resolve instruction addresses to functions and source lines\n\n" ++
    "Usage: ipsym [OPTIONS] --elf <PATH[@ADDR]> <ADDRESS>...\n\n" ++
    "Arguments:\n" ++
    "  <ADDRESS>...  Runtime addresses to resolve (hex)\n\n" ++
    "Options:\n" ++
    "      --elf <PATH[@ADDR]>  Image to load, optionally followed by @LOAD_ADDRESS (hex)\n" ++
    "  -C, --demangle           Demangle symbol names\n" ++
    "      --functions-only     Print only function names\n" ++
    "  -h, --help               Print help\n\n" ++
    "EXAMPLES:\n" ++
    "    ipsym --elf ./app 0x4011d6\n" ++
    "    ipsym -C --elf /usr/lib/libfoo.so@0x7f3a10000000 0x7f3a10001234\n"

end CommandLine

end Symbolization
