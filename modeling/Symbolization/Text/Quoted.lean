import Symbolization.Text.Invisible

/-!
# Quoted text

A text between double quotes, on one line, in which every character can be seen.
-/

namespace Symbolization

namespace Quoted

/-- A character inside of quotes. -/
def escape (char : Char) : List Char :=
  match char with
  | '\x00' => ['\\', '0']
  | '\t' => ['\\', 't']
  | '\r' => ['\\', 'r']
  | '\n' => ['\\', 'n']
  | '"' => ['\\', '"']
  | '\\' => ['\\', '\\']
  | _ =>
    if Invisible.contains char then
      '\\' :: 'u' :: '{' :: Nat.toDigits 16 char.toNat ++ ['}']
    else [char]

def render (text : String) : String :=
  String.ofList ('"' :: text.toList.flatMap escape ++ ['"'])

end Quoted

end Symbolization
