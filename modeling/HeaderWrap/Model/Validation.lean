import HeaderWrap.Model
import HeaderWrap.Model.Error
import HeaderWrap.Naming
import HeaderWrap.Text.Basic
import HeaderWrap.Text.Position

/-! Consistency of models: the rules, the first of them that a model breaks, and the place in the
text of the model that shows it. -/
namespace HeaderWrap.Model
open Text

inductive Role where
  | ofClass
  | ofGroup
  | ofTemplate
  | listedIn (template : String)
  deriving DecidableEq, Repr

def Role.describe : Role → String
  | .ofClass => "class"
  | .ofGroup => "free function group"
  | .ofTemplate => "template"
  | .listedIn template => "class in '" ++ template ++ "'"

inductive Violation where
  | identifier (name : String) (role : Role) (fault : Naming.Fault)
  | blankType (name : String)
  | duplicateClass (name : String)
  | groupCollision (name : String)
  | unknownClass (template name : String)
  /-- A conversion of a C type whose wrapper is blank. -/
  | blankWrapper (type : String)
  deriving DecidableEq, Repr

namespace Violation

def subject : Violation → String
  | identifier name .. | blankType name | duplicateClass name | groupCollision name |
    unknownClass _ name | blankWrapper name => name

end Violation

def nameViolation? (role : Role) (name : String) : Option Violation :=
  (Naming.fault? name).map (.identifier name role)

def classViolation? (before : List ClassEntry) (c : ClassEntry) : Option Violation :=
  nameViolation? .ofClass c.name <|>
  if allBlank c.type.toList then some (.blankType c.name)
  else if before.any (·.name == c.name) then some (.duplicateClass c.name)
  else none

def classesViolation? (before : List ClassEntry) : List ClassEntry → Option Violation
  | [] => none
  | c :: cs => classViolation? before c <|> classesViolation? (before ++ [c]) cs

def headerViolation? (m : Model) (h : HeaderEntry) : Option Violation :=
  nameViolation? .ofGroup h.group <|>
  if (m.class? h.group).isSome then some (.groupCollision h.group) else none

def listedViolation? (m : Model) (template name : String) : Option Violation :=
  nameViolation? (.listedIn template) name <|>
  if (m.class? name).isNone then some (.unknownClass template name) else none

def templateViolation? (m : Model) (t : TemplateEntry) : Option Violation :=
  nameViolation? .ofTemplate t.name <|> t.classes.findSome? (listedViolation? m t.name)

def typeViolation? (type : String) (t : TypeEntry) : Option Violation :=
  if allBlank t.wrapper.toList then some (.blankWrapper type) else none

/-- The first rule that a model breaks, if any: first those on classes, then those on headers,
templates and types. -/
def violation? (m : Model) : Option Violation :=
  classesViolation? [] m.classes <|>
  m.headers.findSome? (headerViolation? m) <|>
  m.templates.findSome? (templateViolation? m) <|>
  m.types.entries.findSome? fun (type, t) => typeViolation? type t

def span? (text : List Char) (name : String) (index : Nat) : Option Span :=
  (quotedOccurrences name.toList text)[index]?.map fun offset =>
    ⟨offset, byteLength name.toList⟩

/-- The error that shows a violation in the text of the model. A second declaration that is not
written as the first is not shown, and of a group's name its second occurrence is taken for the use
as a group. -/
def Violation.error (text : List Char) : Violation → Error
  | .identifier name role fault =>
    .invalidIdentifier name role.describe fault.reason (span? text name 0)
  | .blankType name =>
    .validation ("class '" ++ name ++ "' has an empty C type") (span? text name 0)
  | .duplicateClass name =>
    match span? text name 0, span? text name 1 with
    | some first, some second => .duplicateClass name first second
    | first?, _ => .validation ("class '" ++ name ++ "' is declared twice") first?
  | .groupCollision name => .groupCollision name (span? text name 1 <|> span? text name 0)
  | .unknownClass template name => .unknownClass template name (span? text name 0)
  | .blankWrapper type =>
    .validation ("type '" ++ type ++ "' has an empty wrapper") (span? text type 0)

def validate (text : List Char) (m : Model) : Except Error Unit :=
  match m.violation? with
  | some v => .error (v.error text)
  | none => .ok ()

end HeaderWrap.Model
