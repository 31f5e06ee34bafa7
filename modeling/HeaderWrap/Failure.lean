import HeaderWrap.Disk

/-! Failures that end a run. -/
namespace HeaderWrap

inductive Failure where
  | headerUnreadable (path : String) (cause : Disk.Fault)
  | templateUnreadable (path : String) (cause : Disk.Fault)
  | headerUnknown (path : String)
  | templateUnknown (path : String)
  | unwritable (fault : Disk.WriteFault)
  /-- A run with errors is not written. -/
  | refused (errors : Nat)
  | inRun (cause : Failure)
  | inWriting (cause : Failure)
  deriving DecidableEq, Repr

namespace Failure

def chain : Failure → List String
  | headerUnreadable path cause => ["failed to read header '" ++ path ++ "'", cause.message]
  | templateUnreadable path cause => ["failed to read template '" ++ path ++ "'", cause.message]
  | headerUnknown path => ["header '" ++ path ++ "' not found"]
  | templateUnknown path => ["template '" ++ path ++ "' not found"]
  | unwritable (.directory path cause) =>
    ["failed to create directory '" ++ path ++ "'", cause.message]
  | unwritable (.file path cause) => ["failed to write '" ++ path ++ "'", cause.message]
  | refused errors =>
    ["generation failed with " ++ toString errors ++ " error(s), nothing was written"]
  | inRun cause => "Pipeline failed" :: cause.chain
  | inWriting cause => "Failed to write generated files" :: cause.chain

def message (f : Failure) : String := f.chain.head?.getD ""

end Failure
end HeaderWrap
