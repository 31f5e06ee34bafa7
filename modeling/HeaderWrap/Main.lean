import HeaderWrap.Command

/-! The program: its commands on the file system of the machine. -/
namespace HeaderWrap

def Disk.Fault.ofError : IO.Error → Disk.Fault
  | .noFileOrDirectory .. => .absent
  | .alreadyExists .. => .present
  | .inappropriateType _ 20 _ => .notDirectory
  | .inappropriateType _ 21 _ => .isDirectory
  | e => .other (toString e)

private def attempt {α : Type} (action : IO α) : IO (Except Disk.Fault α) := do
  return match ← action.toBaseIO with
    | .ok a => .ok a
    | .error e => .error (.ofError e)

instance : Disk IO where
  readText path := do
    return match ← attempt (IO.FS.readBinFile path) with
      | .error f => .error f
      | .ok bytes =>
        match String.fromUTF8? bytes with
        | some text => .ok text
        | none => .error .notText
  writeText path text := attempt (IO.FS.writeFile path text)
  createDirectory path := attempt (IO.FS.createDir path)
  isDirectory path := do
    match ← attempt (IO.FS.realPath path) with
    | .ok place => place.isDir
    | .error _ => return false
  isPresent path := do
    match ← attempt (IO.FS.realPath path) with
    | .ok place => place.pathExists
    | .error _ => return false

end HeaderWrap

open HeaderWrap in
def main (args : List String) : IO UInt32 := do
  let outcome ← Command.execute args
  IO.print outcome.output
  IO.eprint outcome.complaints
  return outcome.code.toUInt32
