import HeaderWrap.Run.Collect
import HeaderWrap.Run.Load
import HeaderWrap.Run.Render

/-! Whole runs: all phases in order, and the rendered files on disk. -/
namespace HeaderWrap.Run
variable {m : Type → Type} [Monad m]

def complete (model : Model) (registry : Registry) (sources : Sources m) :
    m (Except Failure Run) := do
  let (r, failure?) ← (start model registry).load sources
  return match failure? with
    | some f => .error f
    | none => .ok r.collect.render

structure Written where
  written : List String
  unchanged : List String
  deriving DecidableEq, Repr

def writeOutputs [Disk m] (directory : String) : List Output → m (Except Failure Written)
  | [] => return .ok ⟨[], []⟩
  | o :: os => do
    match ← Disk.update (Path.join directory o.path) o.content with
    | .error f => return .error (.unwritable f)
    | .ok u =>
      return (← writeOutputs directory os).map fun w => match u with
        | .written => { w with written := o.path :: w.written }
        | .unchanged => { w with unchanged := o.path :: w.unchanged }

/-- Writes the rendered files below a directory. A run with errors is refused. -/
def write [Disk m] (r : Run) (directory : String) : m (Except Failure Written) :=
  match r.ofSeverity .error with
  | [] => writeOutputs directory r.outputs
  | errors => return .error (.refused errors.length)

end HeaderWrap.Run
