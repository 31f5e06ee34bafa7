import HeaderWrap.Failure
import HeaderWrap.Table

/-! Where the texts of headers and templates come from. -/
namespace HeaderWrap

structure Sources (m : Type → Type) where
  header : String → m (Except Failure String)
  template : String → m (Except Failure String)

namespace Sources
variable {m : Type → Type} [Monad m]

def ofDirectories [Disk m] (headers templates : String) : Sources m where
  header path := do
    let path := Path.join headers path
    return (← Disk.readText path).mapError (.headerUnreadable path)
  template path := do
    let path := Path.join templates path
    return (← Disk.readText path).mapError (.templateUnreadable path)

def ofTables (headers templates : Table String String) : Sources m where
  header path := return match headers.get? path with
    | some text => .ok text
    | none => .error (.headerUnknown path)
  template path := return match templates.get? path with
    | some text => .ok text
    | none => .error (.templateUnknown path)

end Sources
end HeaderWrap
