import HeaderWrap.Path

/-! File systems: what is asked of one, and files that are written only where they change. -/
namespace HeaderWrap

inductive Disk.Fault where
  | absent
  | isDirectory
  | notDirectory
  | present
  | longName
  | nulInName
  | notText
  | other (message : String)
  deriving DecidableEq, Repr

def Disk.Fault.message : Disk.Fault → String
  | .absent => "No such file or directory (os error 2)"
  | .isDirectory => "Is a directory (os error 21)"
  | .notDirectory => "Not a directory (os error 20)"
  | .present => "File exists (os error 17)"
  | .longName => "File name too long (os error 36)"
  | .nulInName => "file name contained an unexpected NUL byte"
  | .notText => "stream did not contain valid UTF-8"
  | .other message => message

class Disk (m : Type → Type) where
  readText : String → m (Except Disk.Fault String)
  writeText : String → String → m (Except Disk.Fault Unit)
  /-- Creates one directory in a directory that is there. -/
  createDirectory : String → m (Except Disk.Fault Unit)
  isDirectory : String → m Bool
  isPresent : String → m Bool

namespace Disk
variable {m : Type → Type} [Monad m] [Disk m]

def ensureDirectory (path : String) : m (Except Fault Unit) := do
  match ← createDirectory path with
  | .ok () => return .ok ()
  | .error f => return if ← isDirectory path then .ok () else .error f

/-- Creates the first of some directories, of which each lies in the next, and those of the others
that it needs. -/
def ensureAll : List String → m (Except Fault Unit)
  | [] => return .ok ()
  | path :: above => do
    match ← ensureDirectory path with
    | .error .absent =>
      match ← ensureAll above with
      | .ok () => ensureDirectory path
      | .error f => return .error f
    | result => return result

inductive WriteFault where
  | directory (path : String) (cause : Fault)
  | file (path : String) (cause : Fault)
  deriving DecidableEq, Repr

inductive Update where
  | written
  | unchanged
  deriving DecidableEq, Repr

def writeFile (path text : String) : m (Except WriteFault Unit) := do
  let parent? := Path.parent? path
  match ← ensureAll ((parent?.map Path.directories).getD []) with
  | .error f => return .error (.directory (parent?.getD "") f)
  | .ok () => return (← writeText path text).mapError (.file path)

/-- Makes a file hold a text. A file that holds it is not touched. -/
def update (path text : String) : m (Except WriteFault Update) := do
  let current? ← if ← isPresent path then (·.toOption) <$> readText path else pure none
  if current? = some text then return .ok .unchanged
  else return (← writeFile path text).map fun _ => .written

end Disk
end HeaderWrap
