/-!
# Vocabulary of mangled names

The codes of basic types, of operators and of the abbreviations for parts of the standard library.
-/

namespace Symbolization

namespace Mangling

/-- A word of mangled names: a code and the text that it stands for. -/
structure Word where
  code : String
  text : String
  deriving DecidableEq, Repr

namespace Word

/-- The word whose code starts the characters, and the characters behind it.  No code of a
vocabulary starts another one. -/
def read? (words : List Word) (chars : List Char) : Option (Word × List Char) :=
  (words.find? fun word => word.code.toList.isPrefixOf chars).map fun word =>
    (word, chars.drop word.code.length)

end Word

def basicTypes : List Word :=
  [⟨"v", "void"⟩, ⟨"w", "wchar_t"⟩, ⟨"b", "bool"⟩, ⟨"c", "char"⟩, ⟨"a", "signed char"⟩,
    ⟨"h", "unsigned char"⟩, ⟨"s", "short"⟩, ⟨"t", "unsigned short"⟩, ⟨"i", "int"⟩,
    ⟨"j", "unsigned int"⟩, ⟨"l", "long"⟩, ⟨"m", "unsigned long"⟩, ⟨"x", "long long"⟩,
    ⟨"y", "unsigned long long"⟩, ⟨"n", "__int128"⟩, ⟨"o", "unsigned __int128"⟩,
    ⟨"f", "float"⟩, ⟨"d", "double"⟩, ⟨"e", "long double"⟩, ⟨"g", "__float128"⟩, ⟨"z", "..."⟩,
    ⟨"Dd", "decimal64"⟩, ⟨"De", "decimal128"⟩, ⟨"Df", "decimal32"⟩, ⟨"Dh", "half"⟩,
    ⟨"Di", "char32_t"⟩, ⟨"Ds", "char16_t"⟩, ⟨"Du", "char8_t"⟩, ⟨"Da", "auto"⟩,
    ⟨"Dc", "decltype(auto)"⟩, ⟨"Dn", "std::nullptr_t"⟩, ⟨"DF16b", "std::bfloat16_t"⟩]

def fixedPointSizes : List Word :=
  [⟨"s", "short "⟩, ⟨"t", "unsigned short "⟩, ⟨"i", ""⟩, ⟨"j", "unsigned "⟩, ⟨"l", "long "⟩,
    ⟨"m", "unsigned long "⟩]

def fixedPointKinds : List Word := [⟨"DA", "_Accum"⟩, ⟨"DR", "_Fract"⟩]

/-- Whether numbers with a fixed point stay at their bounds instead of exceeding them. -/
def saturations : List Word := [⟨"", ""⟩, ⟨"DS", "_Sat "⟩]

def fixedPointTypes : List Word :=
  saturations.flatMap fun saturation =>
    fixedPointKinds.flatMap fun kind =>
      fixedPointSizes.map fun size =>
        ⟨saturation.code ++ kind.code ++ size.code, saturation.text ++ size.text ++ kind.text⟩

def floatOfWidth (width : Nat) : Word :=
  ⟨"DF" ++ toString width ++ "_", "_Float" ++ toString width⟩

def extendedFloatOfWidth (width : Nat) : Word :=
  ⟨"DF" ++ toString width ++ "x", "_Float" ++ toString width ++ "x"⟩

def signedOfWidth (width : Nat) : Word :=
  ⟨"DB" ++ toString width ++ "_", "signed _BitInt(" ++ toString width ++ ")"⟩

def unsignedOfWidth (width : Nat) : Word :=
  ⟨"DU" ++ toString width ++ "_", "unsigned _BitInt(" ++ toString width ++ ")"⟩

def operators : List Word :=
  [⟨"nw", "new"⟩, ⟨"na", "new[]"⟩, ⟨"dl", "delete"⟩, ⟨"da", "delete[]"⟩, ⟨"ps", "+"⟩,
    ⟨"ng", "-"⟩, ⟨"ad", "&"⟩, ⟨"de", "*"⟩, ⟨"co", "~"⟩, ⟨"pl", "+"⟩, ⟨"mi", "-"⟩, ⟨"ml", "*"⟩,
    ⟨"dv", "/"⟩, ⟨"rm", "%"⟩, ⟨"an", "&"⟩, ⟨"or", "|"⟩, ⟨"eo", "^"⟩, ⟨"aS", "="⟩, ⟨"pL", "+="⟩,
    ⟨"mI", "-="⟩, ⟨"mL", "*="⟩, ⟨"dV", "/="⟩, ⟨"rM", "%="⟩, ⟨"aN", "&="⟩, ⟨"oR", "|="⟩,
    ⟨"eO", "^="⟩, ⟨"ls", "<<"⟩, ⟨"rs", ">>"⟩, ⟨"lS", "<<="⟩, ⟨"rS", ">>="⟩, ⟨"eq", "=="⟩,
    ⟨"ne", "!="⟩, ⟨"lt", "<"⟩, ⟨"gt", ">"⟩, ⟨"le", "<="⟩, ⟨"ge", ">="⟩, ⟨"ss", "<=>"⟩,
    ⟨"nt", "!"⟩, ⟨"aa", "&&"⟩, ⟨"oo", "||"⟩, ⟨"pp", "++"⟩, ⟨"mm", "--"⟩, ⟨"cm", ","⟩,
    ⟨"pm", "->*"⟩, ⟨"pt", "->"⟩, ⟨"cl", "()"⟩, ⟨"ix", "[]"⟩, ⟨"qu", "?"⟩]

/-- The operators that manage storage, which are set off by a blank. -/
def storageOperators : List String := ["nw", "na", "dl", "da"]

inductive WellKnown where
  /-- The namespace itself. -/
  | standard
  | allocator
  | basicString
  | string
  | inputStream
  | outputStream
  | inputOutputStream
  deriving DecidableEq, Repr

namespace WellKnown

def ofCode? : Char → Option WellKnown
  | 't' => some .standard
  | 'a' => some .allocator
  | 'b' => some .basicString
  | 's' => some .string
  | 'i' => some .inputStream
  | 'o' => some .outputStream
  | 'd' => some .inputOutputStream
  | _ => none

def text : WellKnown → String
  | .standard => "std"
  | .allocator => "std::allocator"
  | .basicString => "std::basic_string"
  | .string => "std::string"
  | .inputStream => "std::basic_istream<char, std::char_traits<char> >"
  | .outputStream => "std::ostream"
  | .inputOutputStream => "std::basic_iostream<char, std::char_traits<char> >"

/-- The name that the constructors of the part have.  A namespace has none. -/
def className? : WellKnown → Option String
  | .standard => none
  | .allocator => some "allocator"
  | .basicString => some "basic_string"
  | .string => some "string"
  | .inputStream => some "basic_istream"
  | .outputStream => some "ostream"
  | .inputOutputStream => some "basic_iostream"

end WellKnown

end Mangling

end Symbolization
