/-!
# Text on a terminal

A text may hold control functions for a terminal: escapes, control sequences, and control strings
such as those for a device or for the operating system.  What is left without them and without
other controls is the plain text.
-/

namespace Symbolization

namespace Terminal

/-- How much of a control function was read. -/
inductive State where
  /-- Nothing, so text follows. -/
  | ground
  | escape
  | escapeIntermediate
  | sequenceEntry
  | sequenceParameters
  | sequenceIntermediate
  /-- A control sequence out of order, which has no effect. -/
  | sequenceIgnored
  | deviceEntry
  | deviceParameters
  | deviceIntermediate
  /-- A control string, whose contents have no effect on the text. -/
  | controlString
  | systemCommand
  deriving DecidableEq, Repr

def isBetween (first last char : Char) : Bool := first ≤ char && char ≤ last

/-- Whether a character intermediates between an escape and its final character. -/
def isIntermediate (char : Char) : Bool := isBetween ' ' '/' char

def isFinal (char : Char) : Bool := isBetween '@' '~' char

/-- Whether a character belongs to a parameter, wherever it stands. -/
def isParameter (char : Char) : Bool := isBetween '0' ';' char

/-- Whether a character marks parameters for private use, which it may do in front of them only. -/
def isPrivateMark (char : Char) : Bool := isBetween '<' '?' char

/-- Whether a character ends a control string, which one does whose bytes in UTF-8 hold the byte of
the string terminator. -/
def endsString (char : Char) : Bool := (String.singleton char).toUTF8.toList.contains 0x9c

namespace State

def afterEscape (char : Char) : State :=
  if isIntermediate char then .escapeIntermediate
  else if char = '[' then .sequenceEntry
  else if char = ']' then .systemCommand
  else if char = 'P' then .deviceEntry
  else if char = 'X' ∨ char = '^' ∨ char = '_' then .controlString
  else if isBetween '0' '~' char then .ground
  else .escape

/-- The state behind a character that has no meaning of its own everywhere. -/
def afterOther (state : State) (char : Char) : State :=
  match state with
  | .ground => .ground
  | .escape => afterEscape char
  | .escapeIntermediate => if isBetween '0' '~' char then .ground else .escapeIntermediate
  | .sequenceEntry =>
    if isParameter char || isPrivateMark char then .sequenceParameters
    else if isIntermediate char then .sequenceIntermediate
    else if isFinal char then .ground
    else .sequenceEntry
  | .sequenceParameters =>
    if isPrivateMark char then .sequenceIgnored
    else if isIntermediate char then .sequenceIntermediate
    else if isFinal char then .ground
    else .sequenceParameters
  | .sequenceIntermediate =>
    if isParameter char || isPrivateMark char then .sequenceIgnored
    else if isFinal char then .ground
    else .sequenceIntermediate
  | .sequenceIgnored => if isFinal char then .ground else .sequenceIgnored
  | .deviceEntry =>
    if isParameter char || isPrivateMark char then .deviceParameters
    else if isIntermediate char then .deviceIntermediate
    else if isFinal char then .controlString
    else .deviceEntry
  | .deviceParameters =>
    if isIntermediate char then .deviceIntermediate
    else if isPrivateMark char || isFinal char then .controlString
    else .deviceParameters
  | .deviceIntermediate =>
    if isBetween '0' '~' char then .controlString else .deviceIntermediate
  | .controlString => if endsString char then .ground else .controlString
  | .systemCommand => if char = '\x07' then .ground else .systemCommand

/-- The state behind a character.  An escape starts anew everywhere, and the controls for
cancelling end everything. -/
def next (state : State) (char : Char) : State :=
  if char = '\x18' ∨ char = '\x1a' then .ground
  else if char = '\x1b' then .escape
  else state.afterOther char

/-- Whether controls have their usual effect although a control function is being read. -/
def obeysControls : State → Bool
  | .escape | .escapeIntermediate => true
  | .sequenceEntry | .sequenceParameters | .sequenceIntermediate | .sequenceIgnored => true
  | _ => false

end State

/-- Whether a character is a control that moves on in the text. -/
def isLayout (char : Char) : Bool :=
  char == '\t' || char == '\n' || char == '\x0c' || char == '\r'

def isText (char : Char) : Bool := isLayout char || isBetween ' ' '~' char || '\x7f' < char

/-- Whether a character stays where a control function may have begun. -/
def isShown (state : State) (char : Char) : Bool :=
  if state = .ground then isText char else state.obeysControls && isLayout char

/-- The characters that stay.  Behind one that stays the text goes on as plain text up to the next
character that does not, even if a control function has not ended. -/
def textOf (inText : Bool) (state : State) : List Char → List Char
  | [] => []
  | char :: rest =>
    if (inText && isText char) || isShown state char then
      char :: textOf true (if '\x7f' < char then .ground else state) rest
    else textOf false (state.next char) rest

/-- The text without control functions. -/
def plain (text : String) : String := String.ofList (textOf false .ground text.toList)

end Terminal

end Symbolization
