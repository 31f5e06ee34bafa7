import HeaderWrap.Text.Basic

/-! Declarations of parameters and results, and their canonical text. -/
namespace HeaderWrap
open Text

inductive Modifier where
  | plain
  | pointer
  | reference
  deriving DecidableEq, Repr

namespace Modifier

def symbol : Modifier → String
  | .plain => ""
  | .pointer => "*"
  | .reference => "&"

/-- The modifier written with a symbol; longer runs such as `**` stand for none. -/
def ofSymbol? : String → Option Modifier
  | "" => some .plain
  | "*" => some .pointer
  | "&" => some .reference
  | _ => none

end Modifier

inductive Position where
  | parameter
  | result
  deriving DecidableEq, Repr

/-- A declaration: its parts, or the text kept as it was written because it fits no grammar. -/
inductive Declaration where
  | resolved (base : String) (modifier : Modifier) (isConst : Bool) (name : String)
      (wrapper? : Option String)
  | verbatim (text : String)
  deriving DecidableEq, Repr

namespace Declaration

def unresolved (fragment : String) : Declaration :=
  .verbatim (String.ofList (trim fragment.toList))

def canonical (base : String) (modifier : Modifier) (isConst : Bool) (name : String) : String :=
  unwords ((if isConst then ["const"] else []) ++ [base] ++
    (if modifier = .plain then [] else [modifier.symbol]) ++ (if name = "" then [] else [name]))

def rawType : Declaration → String
  | .resolved base modifier isConst name _ => canonical base modifier isConst name
  | .verbatim text => text

def baseType : Declaration → String
  | .resolved base .. => base
  | .verbatim _ => ""

def modifier : Declaration → Modifier
  | .resolved _ modifier .. => modifier
  | .verbatim _ => .plain

def isConst : Declaration → Bool
  | .resolved _ _ isConst .. => isConst
  | .verbatim _ => false

/-- The declared name. Of a text kept as written it is the last word, so that the parameter can
still be passed on by name. -/
def name : Declaration → String
  | .resolved _ _ _ name _ => name
  | .verbatim text => String.ofList (lastWord text.toList)

def wrapper? : Declaration → Option String
  | .resolved _ _ _ _ wrapper? => wrapper?
  | .verbatim _ => none

def isResolved : Declaration → Bool
  | .resolved .. => true
  | .verbatim _ => false

def hasVoidBase : Declaration → Bool
  | .resolved base .. => base == "void"
  | .verbatim _ => false

def isVoid (d : Declaration) : Bool := d.hasVoidBase && d.modifier = .plain

def isWrapped (d : Declaration) : Bool := d.wrapper?.isSome

def display (d : Declaration) : String :=
  match d.wrapper? with
  | none => d.rawType
  | some wrapper => if d.name = "" then wrapper else wrapper ++ " " ++ d.name

end Declaration
end HeaderWrap
