import HeaderWrap.Header.Fragment
import HeaderWrap.Header.Signature
import HeaderWrap.Layout
import HeaderWrap.Model
import HeaderWrap.Naming

/-! C functions: which class they belong to, and their declaration and definition as methods. -/
namespace HeaderWrap
open Text

structure Function where
  name : String
  result : Declaration
  params : List Declaration
  deriving DecidableEq, Repr

structure Rendering where
  registry : Registry
  options : Options

namespace Function

def ofSignature (registry : Registry) (s : Signature) : Function where
  name := s.name
  result := Header.resolve registry .result s.result
  params := s.params.map (Header.resolve registry .parameter)

def ofHeader (registry : Registry) (text : String) : List Function :=
  (Header.signatures text).map (ofSignature registry)

def entityPrefix? (f : Function) : Option String :=
  match f.params.head? with
  | some p => if p.isResolved then Naming.entityPrefix? p.baseType else none
  | none => none

/-- A function belongs to the target of its own entity prefix; without one it is free, and belongs
to the target `none`. -/
def isOf (f : Function) (target : Option String) : Bool := f.entityPrefix? == target

/-- The name begins with the entity prefix, so the first parameter is the wrapped handle. -/
def isMember (f : Function) : Bool :=
  match f.entityPrefix? with
  | some p => p.toList.isPrefixOf f.name.toList
  | none => false

def methodName (f : Function) : String :=
  match f.entityPrefix? with
  | some p => replaceAll p "" f.name
  | none => f.name

/-- The parameters that are passed on: all but the handle of a member and plain `void`. -/
def wrapperParams (f : Function) : List Declaration :=
  (if f.isMember then f.params.drop 1 else f.params).filter (!·.isVoid)

def isConstAt (f : Function) (target : Option String) (options : Options) : Bool :=
  target.isSome && !f.result.hasVoidBase &&
    (options.constGetters || f.params.head?.any Declaration.isConst)

def signatureLine (f : Function) (target owner? : Option String) (r : Rendering) : String :=
  f.result.display ++ " " ++ (owner?.map (· ++ "::")).getD "" ++ f.methodName ++ "(" ++
    String.intercalate ", " (f.wrapperParams.map Declaration.display) ++ ")" ++
    (if f.isConstAt target r.options then " const" else "")

/-- The argument for the handle. A `const` method casts it if the C function wants to write. -/
def handleArg (f : Function) (first : Declaration) (target : Option String)
    (options : Options) : String :=
  if f.isConstAt target options && !first.isConst then
    "const_cast<" ++ first.baseType ++
      (if first.modifier = .plain then "" else " " ++ first.modifier.symbol) ++ ">(" ++
      options.selfArg ++ ")"
  else options.selfArg

def valueArg (registry : Registry) (p : Declaration) : String :=
  match registry.get? p.baseType with
  | some c => if p.isWrapped then c.castValue p.name else p.name
  | none => p.name

/-- The arguments of the C call: a member passes its handle for the first parameter, and each other
parameter that is not plain `void` passes its value. -/
def callArgs (f : Function) (target : Option String) (r : Rendering) : List String :=
  match f.isMember, f.params with
  | true, first :: rest => f.handleArg first target r.options :: values rest
  | _, rest => values rest
where
  values (rest : List Declaration) : List String :=
    (rest.filter (!·.isVoid)).map (valueArg r.registry)

def call (f : Function) (target : Option String) (r : Rendering) : String :=
  let call := f.name ++ "(" ++ String.intercalate ", " (f.callArgs target r) ++ ")"
  match r.registry.get? f.result.baseType with
  | some c => if f.result.isWrapped then c.castReturn call else call
  | none => call

def statement (f : Function) (target : Option String) (r : Rendering) : String :=
  (if f.result.isVoid then "" else "return ") ++ f.call target r ++ ";"

def declaration? (f : Function) (target : Option String) (r : Rendering) : Option String :=
  if f.isOf target then some (f.signatureLine target none r ++ ";") else none

def definition? (f : Function) (target owner? : Option String) (r : Rendering) : Option String :=
  if f.isOf target then
    some <| Layout.fragment <|
      (Layout.start r.options.bodyIndent).block (f.signatureLine target owner? r ++ " \x7b") "\x7d"
        fun l => l.line (f.statement target r)
  else none

end Function
end HeaderWrap
