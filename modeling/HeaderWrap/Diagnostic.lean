/-! Diagnostics: what a run has to say about its input. -/
namespace HeaderWrap

inductive Severity where
  /-- Nothing is written. -/
  | error
  /-- The output is written, but is hardly what was meant. -/
  | warning
  | info
  deriving DecidableEq, Repr

def Severity.name : Severity → String
  | .error => "error"
  | .warning => "warning"
  | .info => "info"

namespace Diagnostic

inductive Message where
  /-- So many functions have an entity prefix that no class asks for. -/
  | unclaimed (count : Nat)
  /-- A template has no site for functions that it should receive. -/
  | missingToken (template token : String)
  /-- A site was not filled. -/
  | leftToken (token : String)
  | other (text : String)
  deriving DecidableEq, Repr

def Message.text : Message → String
  | .unclaimed count => toString count ++ " function(s) belong to no configured class"
  | .missingToken template token =>
    "template '" ++ template ++ "' has no %%" ++ token ++ "%% token, its functions are dropped"
  | .leftToken token => "token %%" ++ token ++ "%% left unresolved"
  | .other text => text

end Diagnostic

structure Diagnostic where
  severity : Severity
  phase : String
  message : Diagnostic.Message
  /-- The path of the input that it is about. -/
  location? : Option String
  deriving DecidableEq, Repr

namespace Diagnostic

def display (d : Diagnostic) : String :=
  d.severity.name ++ ": " ++ d.message.text ++ (d.location?.map (" (in " ++ · ++ ")")).getD ""

def describe (d : Diagnostic) : String :=
  d.message.text ++ (d.location?.map ("\n  --> " ++ ·)).getD ""

def ofSeverity (severity : Severity) (ds : List Diagnostic) : List Diagnostic :=
  ds.filter (·.severity = severity)

def hasErrors (ds : List Diagnostic) : Bool := ds.any (·.severity = .error)

def hasWarnings (ds : List Diagnostic) : Bool := ds.any (·.severity = .warning)

end Diagnostic
end HeaderWrap
