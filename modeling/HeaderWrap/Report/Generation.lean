import HeaderWrap.Project
import HeaderWrap.Report

/-! Generating the files of a project. -/
namespace HeaderWrap

inductive GenerationResult where
  | written (directory : String) (files : Run.Written)
  /-- Shown, path and content, and not written. -/
  | preview (files : List (String × String))
  | aborted
  deriving DecidableEq, Repr

structure Generation where
  errors : List String
  warnings : List String
  functions : Nat
  result : GenerationResult
  deriving DecidableEq, Repr

namespace Generation

def isSuccess (g : Generation) : Bool := g.errors.isEmpty

def ofRun (r : Run) (result : GenerationResult) : Generation where
  errors := (r.ofSeverity .error).map Diagnostic.describe
  warnings := (r.ofSeverity .warning).map Diagnostic.describe
  functions := (r.groups.values.flatMap Group.functions).length
  result := result

private def resultReport (g : Generation) : Report :=
  let functions := toString g.functions ++ " function(s)"
  match g.result with
  | .aborted =>
    [.plain ("Generation failed with " ++ toString g.errors.length ++
      " error(s), nothing was written")]
  | .preview files =>
    (files.flatMap fun (path, content) => [.divider path, .plain content]) ++
      [.plain ("Dry run: " ++ functions ++ " in " ++ toString files.length ++
        " file(s), nothing was written")]
  | .written directory files =>
    .heading ("Generated " ++ functions ++ " into " ++ directory) ::
      files.written.map .added ++
      files.unchanged.map fun path => .item (path ++ " (unchanged)")

def report (g : Generation) : Report :=
  let notes := g.errors.map .error ++ g.warnings.map .warning
  notes ++ (if notes.isEmpty then [] else [.blank]) ++ g.resultReport

end Generation

def Project.generate {m : Type → Type} [Monad m] [Disk m] (p : Project) (directory : String)
    (dryRun : Bool) : m (Except Failure Generation) := do
  match ← p.run with
  | .error f => return .error (.inRun f)
  | .ok r =>
    if Diagnostic.hasErrors r.diagnostics then return .ok (.ofRun r .aborted)
    else if dryRun then
      return .ok (.ofRun r (.preview (r.outputs.map fun o => (o.path, o.content))))
    else
      return ((← r.write directory).mapError .inWriting).map fun files =>
        .ofRun r (.written directory files)

end HeaderWrap
