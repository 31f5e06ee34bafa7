import HeaderWrap.Disk
import HeaderWrap.Document.Mismatch

/-! Errors of models, and what is shown of them: a message, a code, advice, and labels on the text
of the model. -/
namespace HeaderWrap.Model
open Document

structure Span where
  offset : Nat
  length : Nat
  deriving DecidableEq, Repr

def Span.stop (s : Span) : Nat := s.offset + s.length

structure Label where
  span : Span
  text : String
  deriving DecidableEq, Repr

inductive Error where
  | unreadable (path : String) (cause : Disk.Fault)
  /-- Faulty TOML. Faults of its syntax are not described. -/
  | toml (mismatch? : Option Mismatch)
  /-- Faulty JSON. Faults of its syntax are not described. -/
  | json (mismatch? : Option Mismatch) (span? : Option Span)
  | duplicateClass (name : String) (first second : Span)
  | unknownClass (template name : String) (span? : Option Span)
  /-- A group of free functions that is named as a class. -/
  | groupCollision (name : String) (span? : Option Span)
  | validation (message : String) (span? : Option Span)
  | invalidIdentifier (name context reason : String) (span? : Option Span)
  deriving DecidableEq, Repr

namespace Error

def message : Error → String
  | unreadable path _ => "failed to read '" ++ path ++ "'"
  | toml _ => "failed to parse model file"
  | json .. => "failed to parse JSON model file"
  | duplicateClass name .. => "class '" ++ name ++ "' is declared twice"
  | unknownClass template name _ =>
    "template '" ++ template ++ "' references unknown class '" ++ name ++ "'"
  | groupCollision name _ =>
    "free function group '" ++ name ++ "' has the same name as a class"
  | validation message _ => message
  | invalidIdentifier name context .. => "invalid " ++ context ++ " name '" ++ name ++ "'"

def code? : Error → Option String
  | unreadable .. | invalidIdentifier .. => none
  | toml _ => some "wrapgen::parse_error"
  | json .. => some "wrapgen::json_error"
  | duplicateClass .. => some "wrapgen::duplicate_class"
  | unknownClass .. => some "wrapgen::unknown_class"
  | groupCollision .. => some "wrapgen::group_collision"
  | validation .. => some "wrapgen::validation_error"

def help? : Error → Option String
  | unreadable .. => some "pass the model file with '--model <path>'"
  | toml _ | json .. | validation .. => none
  | duplicateClass .. =>
    some "each class name maps to one template token; rename or remove one of them"
  | unknownClass .. =>
    some "declare it in a [[classes]] entry or remove it from the template"
  | groupCollision name _ =>
    some ("free functions are rendered at their own '%%" ++ name ++
      "%%' token; pick another group name")
  | invalidIdentifier _ _ reason _ =>
    some (reason ++ ". Use only letters, numbers, and underscores, " ++
      "starting with a letter or underscore.")

private def labelAt (text : String) (span? : Option Span) : List Label :=
  (span?.map fun span => ⟨span, text⟩).toList

def labels : Error → List Label
  | unreadable .. | toml _ => []
  | json _ span? => labelAt "parse error here" span?
  | duplicateClass _ first second =>
    [⟨first, "first declared here"⟩, ⟨second, "declared again here"⟩]
  | unknownClass _ _ span? => labelAt "not a declared class" span?
  | groupCollision _ span? => labelAt "collides with a class" span?
  | validation message span? => labelAt message span?
  | invalidIdentifier _ _ _ span? => labelAt "invalid identifier" span?

def detail? : Error → Option String
  | unreadable _ cause => some cause.message
  | toml mismatch? | json mismatch? _ => mismatch?.map Mismatch.message
  | _ => none

end Error
end HeaderWrap.Model
