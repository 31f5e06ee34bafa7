import HeaderWrap.Declaration
import HeaderWrap.Text.Basic

/-! Conversions between a C base type and its wrapper type. -/
namespace HeaderWrap
open Text

inductive ConversionKind where
  /-- A managed handle, passed as its raw pointer and returned as a wrapper that owns nothing. -/
  | handle
  | text
  /-- A class descriptor, passed by address and returned as a pointer. -/
  | classDescriptor
  deriving DecidableEq, Repr

/-- How a C base type maps to its wrapper type. In the casts `\x7b\x7d` stands for the converted
expression. -/
structure Conversion where
  wrapper : String
  kind : ConversionKind
  valueCast : String
  /-- Applied to results; without it they are returned as they are. -/
  returnCast? : Option String
  deriving DecidableEq, Repr

namespace Conversion

def hole : String := "\x7b\x7d"

def ofKind (wrapper : String) : ConversionKind → Conversion
  | .handle => ⟨wrapper, .handle, hole ++ ".raw_ptr()", some (wrapper ++ "(" ++ hole ++ ", false)")⟩
  | .text => ⟨wrapper, .text, hole ++ ".c_str()", some (wrapper ++ "(" ++ hole ++ ")")⟩
  | .classDescriptor => ⟨wrapper, .classDescriptor, "&" ++ hole, none⟩

/-- The type of a wrapper parameter. Wrapped handles are never null, so pointers become
references. -/
def paramType (c : Conversion) : Modifier → String
  | .plain => c.wrapper
  | .pointer | .reference => c.wrapper ++ " &"

def returnType (c : Conversion) (modifier : Modifier) : String :=
  if c.kind = .classDescriptor ∧ modifier = .pointer then c.wrapper ++ " *" else c.wrapper

def typeAt (c : Conversion) : Position → Modifier → String
  | .parameter => c.paramType
  | .result => c.returnType

def castValue (c : Conversion) (expr : String) : String := replaceAll hole expr c.valueCast

def castReturn (c : Conversion) (expr : String) : String :=
  match c.returnCast? with
  | some cast => replaceAll hole expr cast
  | none => expr

end Conversion
end HeaderWrap
