import HeaderWrap.Text.Basic

/-! Names: the prefix that a C type shares with its functions, and usable C++ identifiers. -/
namespace HeaderWrap.Naming
open Text

def keywords : List String := [
  "alignas", "alignof", "and", "asm", "auto", "bool", "break", "case", "catch", "char",
  "class", "const", "const_cast", "constexpr", "continue", "decltype", "default", "delete",
  "do", "double", "dynamic_cast", "else", "enum", "explicit", "export", "extern", "false",
  "float", "for", "friend", "goto", "if", "inline", "int", "long", "mutable", "namespace",
  "new", "noexcept", "not", "nullptr", "operator", "or", "private", "protected", "public",
  "register", "reinterpret_cast", "return", "short", "signed", "sizeof", "static",
  "static_assert", "static_cast", "struct", "switch", "template", "this", "throw", "true",
  "try", "typedef", "typeid", "typename", "union", "unsigned", "using", "virtual", "void",
  "volatile", "while"]

def isKeyword (name : String) : Bool := keywords.contains name

/-- The longest run of segments, each of letters and digits closed by one underscore, at the start
of a text. `segment` is the part of the current segment already read. -/
def segments (segment : List Char) : List Char → List Char
  | [] => []
  | c :: s =>
    if c.isAlphanum then segments (segment ++ [c]) s
    else if c = '_' ∧ segment ≠ [] then segment ++ '_' :: segments [] s
    else []

/-- The entity prefix of a C type: `lv_timer_` for `lv_timer_t`. -/
def entityPrefix? (type : String) : Option String :=
  match segments [] type.toList with
  | [] => none
  | run => some (String.ofList run)

inductive Fault where
  | empty
  | start
  | character
  | keyword
  deriving DecidableEq, Repr

def Fault.reason : Fault → String
  | .empty => "name cannot be empty"
  | .start => "name must start with a letter or underscore"
  | .character => "name must contain only letters, numbers, and underscores"
  | .keyword => "name is a C++ keyword"

def fault? (name : String) : Option Fault :=
  match name.toList with
  | [] => some .empty
  | c :: s =>
    if !(c.isAlpha || c == '_') then some .start
    else if !s.all isWordChar then some .character
    else if isKeyword name then some .keyword
    else none

end HeaderWrap.Naming
