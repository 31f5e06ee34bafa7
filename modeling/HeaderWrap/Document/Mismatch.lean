import HeaderWrap.Text.Quoted

/-! What may be wrong with a document's content, once its syntax is read. -/
namespace HeaderWrap.Document

inductive Found where
  | boolean (b : Bool)
  | integer (n : Int)
  /-- An integer outside 64 bits, and the type that holds it. -/
  | wideInteger (n : Int) (type : String)
  /-- A number with a point or an exponent, as it is shown. -/
  | float (text : String)
  | string (s : String)
  | null
  | sequence
  | map
  deriving DecidableEq, Repr

def Found.describe : Found → String
  | .boolean b => "boolean `" ++ toString b ++ "`"
  | .integer n => "integer `" ++ toString n ++ "`"
  | .wideInteger n type => "integer `" ++ toString n ++ "` as " ++ type
  | .float text => "floating point `" ++ text ++ "`"
  | .string s => "string " ++ Text.quoted s
  | .null => "null"
  | .sequence => "sequence"
  | .map => "map"

inductive Mismatch where
  | type (found : Found) (expected : String)
  | missingField (name : String)
  | duplicateField (name : String)
  | length (found : Nat) (expected : String)
  | unknownVariant (found : String) (known : List String)
  deriving DecidableEq, Repr

private def oneOf (names : List String) : String :=
  "one of " ++ String.intercalate ", " (names.map fun n => "`" ++ n ++ "`")

def Mismatch.message : Mismatch → String
  | .type found expected => "invalid type: " ++ found.describe ++ ", expected " ++ expected
  | .missingField name => "missing field `" ++ name ++ "`"
  | .duplicateField name => "duplicate field `" ++ name ++ "`"
  | .length found expected => "invalid length " ++ toString found ++ ", expected " ++ expected
  | .unknownVariant found known =>
    "unknown variant `" ++ found ++ "`, expected " ++ oneOf known

end HeaderWrap.Document
